import Restraint.LogTransferProofs

/-! The transaction ids of `restraint_stdout_message` over all runs of the daemon. The ids of a run
are consecutive from the second of its first message on, so that two runs share an id exactly if
these ranges meet. -/
namespace Restraint.TransactionIds
open CString (Text)
open Restraint.Client (Json jsonToHashtable)
open Restraint.LogTransfer (Transfer SoupMessage jsonHeaders post)

/-- A call of `restraint_stdout_message`. -/
structure Call where
  /-- `time (NULL)`. -/
  second : Nat
  epoch : 0 < second
  /-- The message comes with client data; otherwise nothing is printed. -/
  clientData : Bool
  msg : SoupMessage

/-- `restraint_stdout_message`: the static `transaction_id` and the headers that are printed. -/
def restraintStdoutMessage (transactionId : Nat) (call : Call) :
    Nat × Option (Text → Option Json) :=
  let transactionId := if transactionId = 0 then call.second else transactionId
  if call.clientData then
    (if call.msg.method = "POST".toList then transactionId + 1 else transactionId,
      some (jsonHeaders call.msg transactionId))
  else (transactionId, none)

def Call.isPost (call : Call) : Bool := call.clientData && call.msg.method = "POST".toList

/-- The transaction ids that the client reads of the POST messages. -/
def postIds : Nat → List Call → List (Option Text)
  | _, [] => []
  | transactionId, call :: rest =>
    let (next, headers) := restraintStdoutMessage transactionId call
    (if call.isPost then
      headers.toList.map fun headers => jsonToHashtable headers "transaction-id".toList
    else []) ++ postIds next rest

/-- A run of the daemon. -/
structure Run where
  start : Nat
  calls : List Call
  running : ∀ call ∈ calls, start ≤ call.second

/-- The runs for a recipe, each started after the start of the one before. -/
structure History where
  runs : List Run
  later : runs.Pairwise fun run next => run.start < next.start

/-- The ids of a run; the static `transaction_id` is 0 in a new process. -/
def Run.ids (run : Run) : List (Option Text) := postIds 0 run.calls

/-- The second of the first message. -/
def Run.first (run : Run) : Nat := (run.calls.head?.map Call.second).getD run.start

/-- How many POST messages a run prints. -/
def Run.posts (run : Run) : Nat := run.calls.countP Call.isPost

/-- Counted from the second of its first message, the messages of one run end before the first
second of the other, or a run prints none. -/
def Apart (run next : Run) : Prop :=
  run.posts = 0 ∨ next.posts = 0 ∨ run.first + run.posts ≤ next.first ∨
    next.first + next.posts ≤ run.first

instance {run next : Run} : Decidable (Apart run next) := inferInstanceAs (Decidable (_ ∨ _))

variable {transactionId : Nat} {call : Call} {calls : List Call} {run next : Run}

/-- Once it is set, the id goes on as in the daemon that talks to the client over a pipe. -/
theorem stdout_agrees {s t : Transfer} (seeded : 0 < s.transactionId) (client : call.clientData = true)
    (ran : LogTransfer.restraintStdoutMessage s call.msg = some t) :
    restraintStdoutMessage s.transactionId call =
      (t.transactionId, t.pipe.getLast?.map Client.Line.headers) := by
  obtain ⟨body, -, rfl⟩ := Option.map_eq_some_iff.mp ran
  simp [restraintStdoutMessage, client, Nat.ne_of_gt seeded]

theorem jsonHeaders_transactionId {msg : SoupMessage} (method : msg.method = "POST".toList) :
    jsonToHashtable (jsonHeaders msg transactionId) "transaction-id".toList =
      some (Decimal.print transactionId) := by
  unfold jsonToHashtable jsonHeaders
  rw [if_pos method, LogTransferProofs.jsonObjectObjectAdd_other (by decide),
    LogTransferProofs.jsonObjectObjectAdd_other (by decide),
    LogTransferProofs.jsonObjectObjectAdd_other (by decide),
    LogTransferProofs.jsonObjectObjectAdd_self]

/-- A message takes the next id if it is a POST, and none otherwise. -/
theorem postIds_cons (seeded : 0 < transactionId) : postIds transactionId (call :: calls) =
    if call.isPost then some (Decimal.print transactionId) :: postIds (transactionId + 1) calls
    else postIds transactionId calls := by
  have same : (if transactionId = 0 then call.second else transactionId) = transactionId :=
    if_neg (Nat.ne_of_gt seeded)
  rw [postIds]
  unfold restraintStdoutMessage Call.isPost
  rw [same]
  cases call.clientData with
  | false =>
    simp only [Bool.false_and, Bool.false_eq_true, ↓reduceIte, List.nil_append]
  | true =>
    by_cases method : call.msg.method = "POST".toList
    · simp only [Bool.true_and, method, decide_true, ↓reduceIte, Option.toList_some,
        List.map_cons, List.map_nil, List.singleton_append, jsonHeaders_transactionId method]
    · simp only [Bool.true_and, method, decide_false, Bool.false_eq_true, ↓reduceIte,
        List.nil_append]

private theorem postIds_eq_range (seeded : 0 < transactionId) : postIds transactionId calls =
    (List.range' transactionId (calls.countP Call.isPost)).map fun id => some (Decimal.print id) := by
  induction calls generalizing transactionId with
  | nil => rfl
  | cons call rest ih =>
    rw [postIds_cons seeded]
    cases kind : call.isPost with
    | true =>
      rw [List.countP_cons_of_pos kind, List.range'_succ, List.map_cons, ih (Nat.succ_pos _)]
      rfl
    | false =>
      rw [List.countP_cons_of_neg (by simp [kind]), ih seeded]
      rfl

/-- The first message of a process sets the id. -/
theorem postIds_zero : postIds 0 (call :: calls) = postIds call.second (call :: calls) := by
  have seeded : call.second ≠ 0 := Nat.ne_of_gt call.epoch
  simp only [postIds, restraintStdoutMessage, ↓reduceIte, seeded]

private theorem ids_eq_range : run.ids =
    (List.range' run.first run.posts).map fun id => some (Decimal.print id) := by
  unfold Run.ids Run.first Run.posts
  cases run.calls with
  | nil => rfl
  | cons call rest =>
    rw [postIds_zero, postIds_eq_range call.epoch]
    rfl

private theorem shown_injective : Function.Injective fun id => some (Decimal.print id) :=
  fun _ _ same => Decimal.print_injective (Option.some.inj same)

private theorem disjoint_ids_iff : run.ids.Disjoint next.ids ↔ Apart run next := by
  rw [ids_eq_range, ids_eq_range]
  unfold Apart
  constructor
  · intro disjoint
    by_contra meet
    simp only [not_or, Nat.not_le] at meet
    -- the later of the two first seconds is an id of both runs
    have own : max run.first next.first ∈ List.range' run.first run.posts := by
      rw [List.mem_range'_1]
      omega
    have other : max run.first next.first ∈ List.range' next.first next.posts := by
      rw [List.mem_range'_1]
      omega
    exact disjoint (List.mem_map_of_mem own) (List.mem_map_of_mem other)
  · intro apart shown own other
    obtain ⟨id, inside, rfl⟩ := List.mem_map.mp own
    obtain ⟨id', inside', same⟩ := List.mem_map.mp other
    cases shown_injective same
    rw [List.mem_range'_1] at inside inside'
    omega

/-- The ids of all runs are distinct exactly if the runs are apart. -/
theorem transaction_ids_distinct_iff (history : History) :
    (history.runs.flatMap Run.ids).Nodup ↔ history.runs.Pairwise Apart := by
  rw [List.nodup_flatMap]
  have each : ∀ run ∈ history.runs, run.ids.Nodup := by
    intro run _
    rw [ids_eq_range]
    exact List.Nodup.map shown_injective List.nodup_range'
  refine ⟨fun distinct => distinct.2.imp fun disjoint => disjoint_ids_iff.mp disjoint,
    fun apart => ⟨each, apart.imp fun apart => disjoint_ids_iff.mpr apart⟩⟩

/-- Two runs a second apart, the first with two results and the second with one. -/
def busyHistory : History where
  runs := [⟨100, [⟨100, by decide, true, post "results/".toList []⟩,
      ⟨100, by decide, true, post "results/".toList []⟩], by decide⟩,
    ⟨101, [⟨101, by decide, true, post "results/".toList []⟩], by decide⟩]
  later := by decide

theorem transaction_ids_collide : ¬(busyHistory.runs.flatMap Run.ids).Nodup := by
  decide

end Restraint.TransactionIds
