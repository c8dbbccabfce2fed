import Mathlib.Data.List.AList

/-! Hash tables: no two entries have one key, and what a walk over a table does depends on no order
of the entries but the table's own. Filling a table by a fold over a list, looking up and walking
are the operations. A lookup after a fold is the last entry written for the key, and a walk visits
each entry once. -/
namespace HashTable

universe u v w
variable {α : Type u} {β : Type v}

abbrev Table (α : Type u) (β : Type v) := AList fun _ : α => β

abbrev Entry (α : Type u) (β : Type v) := Sigma fun _ : α => β

/-- The order in which tables are walked: every entry once. -/
structure Walk (α : Type u) (β : Type v) where
  entries : Table α β → List (Entry α β)
  complete : ∀ table, (entries table).Perm table.entries

/-- The order of the entries themselves. -/
def Walk.plain : Walk α β where
  entries := AList.entries
  complete _ := List.Perm.refl _

variable {walk : Walk α β} {table other : Table α β} {entries : List (Entry α β)}

theorem Walk.nodupKeys : (walk.entries table).NodupKeys :=
  (List.perm_nodupKeys (walk.complete table)).mpr table.nodupKeys

variable [DecidableEq α] {key : α}

theorem Walk.dlookup : (walk.entries table).dlookup key = table.lookup key :=
  List.perm_dlookup key walk.nodupKeys (walk.complete table)

/-- A walk in which each entry writes what belongs to its key, and nothing else: afterwards there is
what the entry of the key wrote. -/
theorem foldl_written {σ : Type w} {γ : Type*} {read : σ → γ} {step : σ → Entry α β → σ}
    {write : β → γ} {s : σ} (nodup : entries.NodupKeys)
    (effect : ∀ s entry, read (step s entry) = if entry.1 = key then write entry.2 else read s) :
    read (entries.foldl step s) = ((entries.dlookup key).map write).getD (read s) := by
  induction entries generalizing s with
  | nil => rfl
  | cons entry rest ih =>
    obtain ⟨absent, nodup⟩ := List.nodupKeys_cons.mp nodup
    rw [List.foldl_cons, ih nodup, effect]
    split
    · rename_i same
      subst key
      rw [List.dlookup_eq_none.mpr absent, List.dlookup_cons_eq]
      rfl
    · rename_i differ
      rw [List.dlookup_cons_ne _ _ (Ne.symm differ)]

/-- Inserting entries whose keys are missing: the table comes first. -/
theorem lookup_foldl_insert_missing :
    (entries.foldl (fun table entry => if entry.1 ∈ table then table else
      table.insert entry.1 entry.2) table).lookup key =
      (table.lookup key).or (entries.dlookup key) := by
  induction entries generalizing table with
  | nil => simp
  | cons entry rest ih =>
    obtain ⟨own, value⟩ := entry
    rw [List.foldl_cons, ih]
    dsimp only
    by_cases same : key = own
    · subst own
      split
      · rename_i present
        obtain ⟨found, lookup⟩ := Option.isSome_iff_exists.mp (AList.lookup_isSome.mpr present)
        simp [lookup]
      · rename_i missing
        simp [AList.lookup_eq_none.mpr missing]
    · rw [List.dlookup_cons_ne _ _ same]
      split
      · rfl
      · rw [AList.lookup_insert_ne same]

/-- Inserting a table into another: it comes first. -/
theorem lookup_foldl_insert :
    ((walk.entries other).foldl (fun table entry => table.insert entry.1 entry.2) table).lookup key =
      (other.lookup key).or (table.lookup key) := by
  have written : ((walk.entries other).foldl (fun table entry => table.insert entry.1 entry.2)
      table).lookup key = (((walk.entries other).dlookup key).map some).getD (table.lookup key) := by
    apply foldl_written walk.nodupKeys
    intro table entry
    split
    · rename_i same
      rw [same, AList.lookup_insert]
    · rename_i differ
      rw [AList.lookup_insert_ne (Ne.symm differ)]
  rw [written, Walk.dlookup]
  cases other.lookup key <;> rfl

end HashTable
