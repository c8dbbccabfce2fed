import Mathlib.Data.List.Nodup
import Mathlib.Data.Finset.Card

/-! Descents into a graph. A list of nodes is gone through in order; a node that was not
seen before is entered, and its successors are gone through with what was seen so far.
What is seen below a node is forgotten when it is left, so a node may be entered again,
along another route. -/
namespace Descent

universe u
variable {α : Type u}

inductive Visit (α : Type u) where
  | enter (node : α)
  | leave (node : α)
  deriving DecidableEq

/-- The descent into a list, when some nodes were seen before. -/
inductive Visits (next : α → List α) : List α → List α → List (Visit α) → Prop where
  | nil : Visits next seen [] []
  | skip (old : a ∈ seen) (later : Visits next seen todo visits) : Visits next seen (a :: todo) visits
  | enter (new : a ∉ seen) (below : Visits next (a :: seen) (next a) deeper)
      (later : Visits next (a :: seen) todo further) :
      Visits next seen (a :: todo) (.enter a :: deeper ++ .leave a :: further)

/-- The chain of nodes from a list to a node that is entered. -/
inductive Route (next : α → List α) : List α → List α → List α → Prop where
  | here (new : a ∉ seen) : Route next seen (a :: todo) [a]
  | down (new : a ∉ seen) (below : Route next (a :: seen) (next a) chain) :
      Route next seen (a :: todo) (a :: chain)
  | skip (old : a ∈ seen) (later : Route next seen todo chain) : Route next seen (a :: todo) chain
  | pass (new : a ∉ seen) (later : Route next (a :: seen) todo chain) :
      Route next seen (a :: todo) chain

/-- No node is reached by two routes. -/
def Single (next : α → List α) (seen todo : List α) : Prop :=
  ∀ chain chain', Route next seen todo chain → Route next seen todo chain' →
    chain.getLast? = chain'.getLast? → chain = chain'

/-- The nodes that are entered, in order. -/
def entered (visits : List (Visit α)) : List α :=
  visits.filterMap fun
    | .enter node => some node
    | .leave _ => none

/-- The nodes that are left, in order. -/
def left (visits : List (Visit α)) : List α :=
  visits.filterMap fun
    | .enter _ => none
    | .leave node => some node

variable {next : α → List α} {seen todo chain : List α} {visits : List (Visit α)} {a : α}

/-- A route starts with a node that was not seen. -/
theorem Route.starts (route : Route next seen todo chain) :
    ∃ first rest, chain = first :: rest ∧ first ∉ seen := by
  induction route with
  | here new => exact ⟨_, _, rfl, new⟩
  | down new => exact ⟨_, _, rfl, new⟩
  | skip old later ih => exact ih
  | pass new later ih =>
    obtain ⟨first, rest, same, absent⟩ := ih
    exact ⟨first, rest, same, fun member => absent (List.mem_cons_of_mem _ member)⟩

theorem Route.ne_nil (route : Route next seen todo chain) : chain ≠ [] := by
  obtain ⟨first, rest, rfl, -⟩ := route.starts
  exact List.cons_ne_nil _ _

/-- The routes of a descent, one for each node that is entered. -/
theorem Visits.routes (descent : Visits next seen todo visits) :
    ∃ chains : List (List α), chains.Nodup ∧ (∀ chain, chain ∈ chains ↔ Route next seen todo chain) ∧
      chains.map List.getLast? = (entered visits).map some := by
  induction descent with
  | nil =>
    refine ⟨[], .nil, fun chain => iff_of_false List.not_mem_nil ?_, rfl⟩
    rintro ⟨⟩
  | skip old later ih =>
    obtain ⟨chains, nodup, routes, ends⟩ := ih
    refine ⟨chains, nodup, fun chain => (routes chain).trans ⟨.skip old, ?_⟩, ends⟩
    intro route
    cases route with
    | here new => exact absurd old new
    | down new => exact absurd old new
    | skip _ route => exact route
    | pass new => exact absurd old new
  | @enter seen a deeper todo further new below later ihBelow ihLater =>
    obtain ⟨inners, nodupIn, routesIn, endsIn⟩ := ihBelow
    obtain ⟨outers, nodupOut, routesOut, endsOut⟩ := ihLater
    refine ⟨[a] :: inners.map (List.cons a) ++ outers, ?_, ?_, ?_⟩
    · -- a route below the node goes on from it, a later one starts elsewhere
      rw [List.nodup_append, List.nodup_cons]
      refine ⟨⟨?_, nodupIn.map (List.cons_injective)⟩, nodupOut, ?_⟩
      · intro member
        obtain ⟨chain, held, same⟩ := List.mem_map.mp member
        exact ((routesIn chain).mp held).ne_nil (List.cons.inj same).2
      · rintro chain member other held rfl
        obtain ⟨first, rest, rfl, absent⟩ := ((routesOut chain).mp held).starts
        rcases List.mem_cons.mp member with same | member
        · exact absent (by simp [(List.cons.inj same).1])
        · obtain ⟨_, -, same⟩ := List.mem_map.mp member
          exact absent (by simp [(List.cons.inj same).1])
    · intro chain
      rw [List.mem_append, List.mem_cons, List.mem_map]
      constructor
      · rintro ((rfl | ⟨chain, held, rfl⟩) | held)
        · exact .here new
        · exact .down new ((routesIn chain).mp held)
        · exact .pass new ((routesOut chain).mp held)
      · intro route
        cases route with
        | here => exact .inl (.inl rfl)
        | down _ below => exact .inl (.inr ⟨_, (routesIn _).mpr below, rfl⟩)
        | skip old => exact absurd old new
        | pass _ later => exact .inr ((routesOut _).mpr later)
    · have longer : (inners.map (List.cons a)).map List.getLast? = inners.map List.getLast? := by
        rw [List.map_map]
        apply List.map_congr_left
        intro chain held
        obtain ⟨first, rest, rfl, -⟩ := ((routesIn chain).mp held).starts
        rfl
      rw [List.map_append, List.map_cons, longer, endsIn, endsOut]
      simp [entered, List.filterMap_append]

/-- **A descent enters every node at most once if and only if no node has two routes.** -/
theorem Visits.nodup_iff (descent : Visits next seen todo visits) :
    (entered visits).Nodup ↔ Single next seen todo := by
  obtain ⟨chains, nodup, routes, ends⟩ := descent.routes
  rw [← List.nodup_map_iff (Option.some_injective α), ← ends, List.nodup_map_iff_inj_on nodup]
  constructor
  · intro single chain chain' route route' same
    exact single chain ((routes chain).mpr route) chain' ((routes chain').mpr route') same
  · intro single chain held chain' held' same
    exact single chain chain' ((routes chain).mp held) ((routes chain').mp held') same

/-- What is entered is left. -/
theorem Visits.left_perm (descent : Visits next seen todo visits) :
    (left visits).Perm (entered visits) := by
  induction descent with
  | nil => exact .refl _
  | skip old later ih => exact ih
  | @enter seen a deeper todo further new below later ihBelow ihLater =>
    have came : entered (.enter a :: deeper ++ .leave a :: further) =
        a :: (entered deeper ++ entered further) := by simp [entered, List.filterMap_append]
    have went : left (.enter a :: deeper ++ .leave a :: further) =
        left deeper ++ a :: left further := by simp [left, List.filterMap_append]
    rw [came, went]
    exact List.perm_middle.trans ((ihBelow.append ihLater).cons a)

private theorem nodup_of_entered_left (came : (entered visits).Nodup) (went : (left visits).Nodup) :
    visits.Nodup := by
  induction visits with
  | nil => exact .nil
  | cons visit visits ih =>
    cases visit with
    | enter a =>
      obtain ⟨new, came⟩ := List.nodup_cons.mp (show (a :: entered visits).Nodup from came)
      refine List.nodup_cons.mpr ⟨fun again => new ?_, ih came went⟩
      exact List.mem_filterMap.mpr ⟨.enter a, again, rfl⟩
    | leave a =>
      obtain ⟨new, went⟩ := List.nodup_cons.mp (show (a :: left visits).Nodup from went)
      refine List.nodup_cons.mpr ⟨fun again => new ?_, ih came went⟩
      exact List.mem_filterMap.mpr ⟨.leave a, again, rfl⟩

/-- With one route for each node nothing is visited again. -/
theorem Visits.nodup (descent : Visits next seen todo visits) (single : Single next seen todo) :
    visits.Nodup := by
  have came := descent.nodup_iff.mpr single
  exact nodup_of_entered_left came (descent.left_perm.nodup_iff.mpr came)

/-- A chain leads from a list to a node. -/
def Reaches (next : α → List α) (todo : List α) (b : α) : Prop :=
  ∃ a ∈ todo, Relation.ReflTransGen (fun a b => b ∈ next a) a b

/-- A chain that comes to no node seen. -/
def Clear (next : α → List α) (seen : List α) : α → α → Prop :=
  Relation.ReflTransGen fun a b => b ∈ next a ∧ b ∉ seen

/-- A chain that comes to no node seen avoids one more node, or goes on from there. -/
theorem Clear.split {b c : α} (clear : Clear next seen c b) (new : c ∉ seen) :
    b = a ∨ (∃ d ∈ next a, d ∉ a :: seen ∧ Clear next (a :: seen) d b) ∨
      c ∉ a :: seen ∧ Clear next (a :: seen) c b := by
  induction clear using Relation.ReflTransGen.head_induction_on with
  | refl =>
    by_cases same : b = a
    · exact .inl same
    · exact .inr (.inr ⟨by simp [same, new], .refl⟩)
  | @head c d edge _ ih =>
    rcases ih edge.2 with same | onward | ⟨apart, clear⟩
    · exact .inl same
    · exact .inr (.inl onward)
    · by_cases same : c = a
      · subst same
        exact .inr (.inl ⟨d, edge.1, apart, clear⟩)
      · exact .inr (.inr ⟨by simp [same, new], .head ⟨edge.1, apart⟩ clear⟩)

theorem Visits.entered_of_clear {b c : α} (descent : Visits next seen todo visits) (member : c ∈ todo)
    (new : c ∉ seen) (clear : Clear next seen c b) : b ∈ entered visits := by
  induction descent generalizing c with
  | nil => cases member
  | skip old later ih =>
    rcases List.mem_cons.mp member with rfl | member
    · exact absurd old new
    · exact ih member new clear
  | @enter seen a deeper todo further fresh below later ihBelow ihLater =>
    have came : entered (.enter a :: deeper ++ .leave a :: further) =
        a :: (entered deeper ++ entered further) := by simp [entered, List.filterMap_append]
    rw [came, List.mem_cons, List.mem_append]
    rcases clear.split new with same | ⟨d, edge, apart, clear⟩ | ⟨apart, clear⟩
    · exact .inl same
    · exact .inr (.inl (ihBelow edge apart clear))
    · obtain ⟨other, -⟩ := not_or.mp (List.mem_cons.not.mp apart)
      exact .inr (.inr (ihLater ((List.mem_cons.mp member).resolve_left other) apart clear))

theorem Visits.reaches {b : α} (descent : Visits next seen todo visits) (came : b ∈ entered visits) :
    Reaches next todo b := by
  induction descent with
  | nil => cases came
  | skip old later ih =>
    obtain ⟨c, member, chain⟩ := ih came
    exact ⟨c, List.mem_cons_of_mem _ member, chain⟩
  | @enter seen a deeper todo further fresh below later ihBelow ihLater =>
    have came : b = a ∨ b ∈ entered deeper ∨ b ∈ entered further := by
      simpa [entered, List.filterMap_append] using came
    rcases came with rfl | came | came
    · exact ⟨b, List.mem_cons_self, .refl⟩
    · obtain ⟨c, edge, chain⟩ := ihBelow came
      exact ⟨a, List.mem_cons_self, .head edge chain⟩
    · obtain ⟨c, member, chain⟩ := ihLater came
      exact ⟨c, List.mem_cons_of_mem _ member, chain⟩

/-- **A descent that has seen nothing before enters the nodes that it can reach.** -/
theorem Visits.mem_entered {b : α} (descent : Visits next [] todo visits) :
    b ∈ entered visits ↔ Reaches next todo b := by
  refine ⟨descent.reaches, ?_⟩
  rintro ⟨a, member, chain⟩
  apply descent.entered_of_clear member List.not_mem_nil
  exact chain.lift id fun _ _ edge => ⟨edge, List.not_mem_nil⟩

/-- In a graph with finitely many nodes every descent comes to an end. -/
theorem exists_visits [DecidableEq α] (nodes : Finset α) (closed : ∀ a, ∀ b ∈ next a, b ∈ nodes)
    (within : ∀ b ∈ todo, b ∈ nodes) : ∃ visits, Visits next seen todo visits := by
  -- the nodes not seen yet come first, then the list
  generalize bound : (nodes \ seen.toFinset).card = n
  induction n using Nat.strong_induction_on generalizing seen todo with
  | _ n fewer =>
  induction todo generalizing seen with
  | nil => exact ⟨[], .nil⟩
  | cons a todo shorter =>
    obtain ⟨member, later⟩ := List.forall_mem_cons.mp within
    by_cases old : a ∈ seen
    · obtain ⟨visits, descent⟩ := shorter later bound
      exact ⟨visits, .skip old descent⟩
    · have less : (nodes \ (a :: seen).toFinset).card < n := by
        rw [← bound]
        apply Finset.card_lt_card
        rw [Finset.ssubset_iff_of_subset]
        · exact ⟨a, by simp [member, old], by simp⟩
        · intro b held
          simp only [Finset.mem_sdiff, List.mem_toFinset, List.mem_cons, not_or] at held ⊢
          exact ⟨held.1, held.2.2⟩
      obtain ⟨deeper, below⟩ := fewer _ less (closed a) rfl
      obtain ⟨further, after⟩ := fewer _ less later rfl
      exact ⟨_, .enter old below after⟩

end Descent
