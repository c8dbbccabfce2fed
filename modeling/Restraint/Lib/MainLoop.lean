import Mathlib.Data.List.Nodup
import Mathlib.Data.List.Count

/-! The event sources attached to a main loop. A source is attached under a
fresh id and stays until it is removed, so the ids in a loop are distinct and
no id is given out twice; both facts travel with the loop. -/

universe u
variable {α : Type u}

/-- The attached sources, oldest first, each under its id. -/
structure MainLoop (α : Type u) where
  /-- The id the next source gets; ids are positive, 0 stands for no source. -/
  next : Nat
  sources : List (Nat × α)
  positive : 0 < next
  below : ∀ source ∈ sources, source.1 < next
  distinct : (sources.map Prod.fst).Nodup

namespace MainLoop

/-- A loop with no source attached. -/
def empty : MainLoop α := ⟨1, [], Nat.one_pos, by simp, by simp⟩

/-- Attaches a source under the id `loop.next`. -/
def add (loop : MainLoop α) (source : α) : MainLoop α where
  next := loop.next + 1
  sources := loop.sources ++ [(loop.next, source)]
  positive := Nat.succ_pos _
  below := by
    intro entry member
    rcases List.mem_append.mp member with old | new
    · exact Nat.lt_succ_of_lt (loop.below entry old)
    · rw [List.mem_singleton.mp new]; exact Nat.lt_succ_self _
  distinct := by
    rw [List.map_append, List.nodup_append]
    refine ⟨loop.distinct, by simp, ?_⟩
    intro id old fresh new same
    obtain ⟨entry, member, rfl⟩ := List.mem_map.mp old
    have bound := loop.below entry member
    simp only [List.map_cons, List.map_nil, List.mem_singleton] at new
    omega

/-- Detaches the source under an id, if there is one. -/
def remove (loop : MainLoop α) (id : Nat) : MainLoop α where
  next := loop.next
  sources := loop.sources.filter fun source => source.1 != id
  positive := loop.positive
  below := fun source member => loop.below source (List.mem_of_mem_filter member)
  distinct := loop.distinct.sublist (List.filter_sublist.map Prod.fst)

/-- The source attached under an id. -/
def find? (loop : MainLoop α) (id : Nat) : Option α :=
  (loop.sources.find? fun source => source.1 == id).map Prod.snd

/-- How many attached sources are of a kind. -/
def count (p : α → Bool) (loop : MainLoop α) : Nat := loop.sources.countP fun source => p source.2

/-- The attached sources of a kind. -/
def kinds (p : α → Bool) (loop : MainLoop α) : List α :=
  (loop.sources.filter fun source => p source.2).map Prod.snd

variable {loop : MainLoop α} {id : Nat} {a b : α} {p : α → Bool}

@[simp] theorem sources_empty : (empty : MainLoop α).sources = [] := rfl

@[simp] theorem sources_add : (loop.add a).sources = loop.sources ++ [(loop.next, a)] := rfl

@[simp] theorem next_add : (loop.add a).next = loop.next + 1 := rfl

@[simp] theorem next_remove : (loop.remove id).next = loop.next := rfl

theorem next_ne_zero : loop.next ≠ 0 := Nat.ne_of_gt loop.positive

theorem mem_add {entry : Nat × α} :
    entry ∈ (loop.add a).sources ↔ entry ∈ loop.sources ∨ entry = (loop.next, a) := by simp

theorem mem_remove {entry : Nat × α} :
    entry ∈ (loop.remove id).sources ↔ entry ∈ loop.sources ∧ entry.1 ≠ id := by simp [remove]

/-- Two sources under one id are the same source. -/
theorem unique (left : (id, a) ∈ loop.sources) (right : (id, b) ∈ loop.sources) : a = b := by
  have same := List.inj_on_of_nodup_map loop.distinct left right rfl
  exact (Prod.mk.inj same).2

/-- Removing a source leaves the sources of other kinds attached. -/
theorem mem_remove_other (held : (id, a) ∈ loop.sources) (other : b ≠ a) {i : Nat} :
    (i, b) ∈ (loop.remove id).sources ↔ (i, b) ∈ loop.sources := by
  rw [mem_remove]
  constructor
  · exact And.left
  · intro member
    refine ⟨member, ?_⟩
    rintro rfl
    exact other (unique member held)

theorem remove_add (old : id ≠ loop.next) :
    (loop.add a).remove id = (loop.remove id).add a := by
  have fresh : loop.next ≠ id := Ne.symm old
  simp [add, remove, List.filter_append, fresh]

theorem find?_eq_some : loop.find? id = some a ↔ (id, a) ∈ loop.sources := by
  unfold find?
  constructor
  · intro found
    obtain ⟨entry, first, rfl⟩ := Option.map_eq_some_iff.mp found
    have key := List.find?_some first
    simp only [beq_iff_eq] at key
    exact key ▸ List.mem_of_find?_eq_some first
  · intro member
    cases first : loop.sources.find? fun source => source.1 == id with
    | none =>
      have absent := List.find?_eq_none.mp first (id, a) member
      simp at absent
    | some entry =>
      have key := List.find?_some first
      simp only [beq_iff_eq] at key
      have held : (id, entry.2) ∈ loop.sources := key ▸ List.mem_of_find?_eq_some first
      simp [unique held member]

@[simp] theorem count_empty : (empty : MainLoop α).count p = 0 := rfl

@[simp] theorem count_add : (loop.add a).count p = loop.count p + if p a then 1 else 0 := by
  simp [count, List.countP_append, List.countP_singleton]

/-- Removing an attached source lowers the count of its kinds by one. -/
theorem count_remove (found : loop.find? id = some a) :
    (loop.remove id).count p + (if p a then 1 else 0) = loop.count p := by
  have member := find?_eq_some.mp found
  have distinct := loop.distinct
  simp only [count, remove]
  revert member distinct
  generalize loop.sources = sources
  induction sources with
  | nil => intro member; simp at member
  | cons entry rest ih =>
    intro member distinct
    obtain ⟨absent, tail⟩ := List.nodup_cons.mp distinct
    rcases List.mem_cons.mp member with rfl | member
    · have kept : rest.filter (fun source => source.1 != id) = rest := by
        apply List.filter_eq_self.mpr
        intro source held
        have different : source.1 ≠ id := fun same =>
          absent (List.mem_map.mpr ⟨source, held, same⟩)
        simpa using different
      simp [kept, List.countP_cons]
    · have different : entry.1 ≠ id := fun same =>
        absent (List.mem_map.mpr ⟨(id, a), member, same.symm⟩)
      have below := ih member tail
      rw [List.filter_cons_of_pos (by simpa using different)]
      simp only [List.countP_cons]
      omega

@[simp] theorem kinds_empty : (empty : MainLoop α).kinds p = [] := rfl

@[simp] theorem kinds_add : (loop.add a).kinds p = loop.kinds p ++ if p a then [a] else [] := by
  cases kind : p a <;> simp [kinds, List.filter_append, kind]

theorem mem_kinds (found : loop.find? id = some a) (kind : p a = true) : a ∈ loop.kinds p :=
  List.mem_map.mpr ⟨(id, a), List.mem_filter.mpr ⟨find?_eq_some.mp found, kind⟩, rfl⟩

/-- A source of a kind with one source at most is the only one. -/
theorem kinds_single (found : loop.find? id = some a) (kind : p a = true)
    (single : (loop.kinds p).length ≤ 1) : loop.kinds p = [a] := by
  have member := mem_kinds found kind
  generalize loop.kinds p = kinds at member single
  match kinds with
  | [] => cases member
  | [only] => rw [List.mem_singleton.mp member]
  | _ :: _ :: _ => simp at single

theorem length_kinds : (loop.kinds p).length = loop.count p := by
  rw [kinds, List.length_map, count, List.countP_eq_length_filter]

/-- Removing a source of another kind changes nothing about a kind. -/
theorem kinds_remove_other (found : loop.find? id = some a) (other : p a = false) :
    (loop.remove id).kinds p = loop.kinds p := by
  have held := find?_eq_some.mp found
  rw [kinds, kinds, remove, List.filter_filter]
  congr 1
  apply List.filter_congr
  intro source member
  by_cases here : source.1 = id
  · have here : (id, source.2) ∈ loop.sources := here ▸ member
    have same := unique here held
    simp [same, other]
  · simp [here]

/-- An id that was given to a source of a kind, whether or not it is still attached. -/
def Owned (p : α → Bool) (loop : MainLoop α) (id : Nat) : Prop :=
  id < loop.next ∧ ∀ a, (id, a) ∈ loop.sources → p a = true

theorem Owned.add (owned : Owned p loop id) : Owned p (loop.add a) id := by
  refine ⟨Nat.lt_succ_of_lt owned.1, fun b member => ?_⟩
  rcases mem_add.mp member with old | new
  · exact owned.2 b old
  · exact absurd (Prod.mk.inj new).1 (Nat.ne_of_lt owned.1)

theorem Owned.remove (owned : Owned p loop id) {i : Nat} : Owned p (loop.remove i) id :=
  ⟨owned.1, fun a member => owned.2 a (mem_remove.mp member).1⟩

theorem owned_next (kind : p a = true) : Owned p (loop.add a) loop.next := by
  refine ⟨Nat.lt_succ_self _, fun b member => ?_⟩
  rcases mem_add.mp member with old | new
  · exact absurd (loop.below _ old) (Nat.lt_irrefl _)
  · exact (Prod.mk.inj new).2 ▸ kind

theorem owned_of_find? (found : loop.find? id = some a) (kind : p a = true) : Owned p loop id := by
  have held := find?_eq_some.mp found
  exact ⟨loop.below _ held, fun b member => unique held member ▸ kind⟩

/-- Removing what a kind owns changes nothing about another kind. -/
theorem Owned.kinds_remove {q : α → Bool} (owned : Owned p loop id)
    (apart : ∀ a, p a = true → q a = false) : (loop.remove id).kinds q = loop.kinds q := by
  cases found : loop.find? id with
  | some a => exact kinds_remove_other found (apart a (owned.2 a (find?_eq_some.mp found)))
  | none =>
    have same : (loop.remove id).sources = loop.sources := by
      apply List.filter_eq_self.mpr
      intro source member
      have other : source.1 ≠ id := by
        rintro rfl
        have held := find?_eq_some.mpr member
        rw [found] at held
        cases held
      simpa using other
    rw [kinds, kinds, same]

/-- A loop whose kinds are all empty has no source. -/
theorem sources_eq_nil {q : α → Bool} (all : ∀ a, p a = true ∨ q a = true)
    (left : loop.kinds p = []) (right : loop.kinds q = []) : loop.sources = [] := by
  apply List.eq_nil_iff_forall_not_mem.mpr
  intro source member
  have found : loop.find? source.1 = some source.2 := find?_eq_some.mpr member
  rcases all source.2 with kind | kind
  · exact List.ne_nil_of_mem (mem_kinds found kind) left
  · exact List.ne_nil_of_mem (mem_kinds found kind) right

/-- Removing the only source of a kind leaves none. -/
theorem kinds_remove_only (found : loop.find? id = some a) (kind : p a = true)
    (only : loop.kinds p = [b]) : (loop.remove id).kinds p = [] := by
  have removed := count_remove (p := p) found
  rw [if_pos kind, ← length_kinds, ← length_kinds, only] at removed
  exact List.length_eq_zero_iff.mp (Nat.succ.inj removed)

/-- An attached source has an id that was given out before. -/
theorem ne_next (found : loop.find? id = some a) : id ≠ loop.next :=
  Nat.ne_of_lt (loop.below _ (find?_eq_some.mp found))

end MainLoop
