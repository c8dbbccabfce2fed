import Restraint.Multihost

/-! The hosts of a job run in step. An event of the plugin that a server holds was posted by a host
that had finished a task of that number; a host that passes has heard it from all the others. -/
namespace Restraint.Multihost
open CString (Text)
open Transition
open Restraint.Env (varname printInt)
open Restraint.Sync (Server Name handleLconn message replies ping)
open Restraint.SyncScripts

variable {job : Job} {s t : System} {e : Event} {es : List Event} {history : List Mark} {mark : Mark}
variable {host machine : Text} {h h' : Host} {name : Name} {server server' : Server} {k : Nat}
variable {environ : List Text} {b : Blocking} {number state x y : Text} {received : List (List Char)}

/-! ## The plugin -/

theorem order_digits {c : Char} (member : c ∈ order environ) : c.isDigit = true := by
  unfold order expr at member
  split at member
  · exact Decimal.isDigit_of_mem_print member
  · cases member

private theorem order_noUnderscore : '_' ∉ order environ := fun member =>
  absurd (order_digits member) (by decide)

/-- The number and the state of an event can be told apart. -/
theorem event_injective (left : '_' ∉ x) (right : '_' ∉ y) {rest : Text}
    (same : event x state = event y rest) : x = y ∧ state = rest := by
  have cut (x state : Text) (plain : '_' ∉ x) : (event x state).takeWhile (· ≠ '_') = x := by
    rw [event, List.takeWhile_append_of_pos]
    · simp
    · intro c member
      have other : c ≠ '_' := fun same => plain (same ▸ member)
      simpa using other
  have first : x = y := by rw [← cut x state left, same, cut y rest right]
  subst first
  exact ⟨rfl, (List.cons.inj (List.append_cancel_left same)).2⟩

theorem posted_eq : posted environ = some (barrier environ) := by
  simp only [posted, syncSet, setOptions]
  rw [if_neg (by decide), XTRA, if_pos (by decide), barrier]

private theorem words_barrier : words (' ' :: barrier environ) = [barrier environ] := by
  rw [words_ifs (by decide), words_word]
  · intro c member
    unfold barrier event DONE at member
    rcases List.mem_append.mp member with digit | rest
    · have digit := order_digits digit
      unfold isIFS
      simp only [Bool.or_eq_false_iff, decide_eq_false_iff_not]
      refine ⟨⟨?_, ?_⟩, ?_⟩ <;> rintro rfl <;> exact absurd digit (by decide)
    · have plain : ('_' :: "DONE".toList).all (!isIFS ·) = true := by decide
      simpa using List.all_eq_true.mp plain c rest
  · simp [barrier, event]

/-- What the plugin's `rstrnt-sync-block` is told. -/
theorem awaited_spec (waits : awaited environ = some b) : b.machines = members environ ∧
    b.states = [barrier environ] ∧ b.any = false ∧ b.timeout = none ∧ Asks b := by
  have machines : b.machines = members environ := by rw [members, waits, Option.elim_some]
  have named : "rstrnt-sync-block".toList ∈ blockNames := by decide
  unfold awaited syncBlock at waits
  simp only [blockOptions, XTRA, if_pos named, List.nil_append] at waits
  split at waits
  · cases waits
  · rename_i nonempty
    cases waits
    have states : words (' ' :: barrier environ) = [barrier environ] := words_barrier
    unfold barrier at states ⊢
    refine ⟨machines, states, rfl, rfl, ?_, ?_⟩
    · intro none
      dsimp only at none
      apply nonempty
      cases arguments : words (getenv SERVERS environ) ++ words (getenv CLIENTS environ) ++
          words (getenv DRIVER environ) with
      | nil => simp
      | cons word rest =>
        rw [arguments, List.flatMap_cons, List.append_eq_nil_iff] at none
        have member : word ∈ words (getenv SERVERS environ) ++ words (getenv CLIENTS environ) ++
            words (getenv DRIVER environ) := arguments ▸ List.mem_cons_self
        obtain ⟨some, plain⟩ : word ≠ [] ∧ ∀ c ∈ word, isIFS c = false := by
          simp only [List.mem_append] at member
          rcases member with (member | member) | member <;> exact words_spec member
        rw [words_word plain some] at none
        cases none.1
    · dsimp only
      rw [states]
      exact List.cons_ne_nil _ _

/-! ## The servers -/

/-- A byte that `block` has in its buffer came in one of the pieces. -/
theorem mem_of_held {i : Nat} (other : SyncClient.held received i ≠ Sync.NUL) :
    SyncClient.held received i ∈ received.flatten := by
  unfold SyncClient.held at other ⊢
  rw [List.getLastD_eq_getLast?] at other ⊢
  cases last : (received.filterMap (·[i]?)).getLast? with
  | none =>
    rw [last] at other
    exact absurd rfl other
  | some c =>
    obtain ⟨bytes, member, here⟩ := List.mem_filterMap.mp (List.mem_of_getLast? last)
    exact List.mem_flatten.mpr ⟨bytes, member, List.mem_of_getElem? here⟩

/-- `block` cannot take PINGs for its event. -/
theorem block_pings {n : Nat} (distinct : '_' ∈ name.text) (pieces : SyncClient.Pieces received)
    (pings : received.flatten <+: (List.replicate n ping).flatten) :
    Sync.block name.text received ≠ 0 := by
  intro success
  obtain ⟨before, -, begins, same⟩ := (SyncClient.block_eq_zero pieces).mp success
  obtain ⟨i, inside, here⟩ := List.mem_iff_getElem.mp distinct
  have held : SyncClient.held before i = '_' := by
    apply same i
    rw [message, List.getElem?_append_left inside, List.getElem?_eq_getElem inside, here]
  have member : '_' ∈ before.flatten := held ▸ mem_of_held (by rw [held]; decide)
  obtain ⟨bytes, piece, within⟩ := List.mem_flatten.mp member
  have sent := pings.subset (List.mem_flatten.mpr ⟨bytes, begins.subset piece, within⟩)
  obtain ⟨word, copies, letter⟩ := List.mem_flatten.mp sent
  rw [List.eq_of_mem_replicate copies] at letter
  exact absurd letter (by decide)

/-- When `block` succeeds, the server has the event. -/
theorem set_of_block {sockfd : Nat} (sound : SyncServer.Sound server)
    (asked : server.asked[sockfd]? = some name) (distinct : '_' ∈ name.text)
    (delivered : Delivered server sockfd received) (success : Sync.block name.text received = 0) :
    name.text ∈ server.events := by
  have waits {n : Nat} (told : replies server sockfd = List.replicate n ping) : False :=
    block_pings distinct delivered.1 (told ▸ delivered.2) success
  cases sound.standing sockfd name asked with
  | waiting n listed unset told => exact (waits told).elim
  | answered n unlisted set told => exact set
  | dropped n unlisted gone told => exact (waits told).elim

/-- A server keeps its connections apart from each other, and its events. -/
structure Grew (server server' : Server) : Prop where
  asked : server.asked <+: server'.asked
  events : server'.events = server.events

theorem step_grew {event : Sync.Event} (taken : Sync.step server event = some server')
    (other : ∀ name, event ≠ .set name) : Grew server server' := by
  cases event with
  | block name failed =>
    simp only [Sync.step] at taken
    split at taken
    · cases taken
      unfold Sync.handleRconn
      dsimp only
      split
      · exact ⟨List.prefix_append .., rfl⟩
      · exact ⟨List.prefix_append .., rfl⟩
    · cases taken
  | set name => exact absurd rfl (other name)
  | refused =>
    cases taken
    exact ⟨List.prefix_rfl, rfl⟩
  | hangUp sockfd =>
    simp only [Sync.step] at taken
    split at taken
    · cases taken
      exact ⟨List.prefix_rfl, rfl⟩
    · cases taken

private theorem step_asked {failed : List Nat}
    (taken : Sync.step server (.block name failed) = some server') :
    server'.asked[server.asked.length]? = some name := by
  simp only [Sync.step] at taken
  split at taken
  · cases taken
    unfold Sync.handleRconn
    dsimp only
    split <;> exact List.getElem?_concat_length ..
  · cases taken

/-- Every server that a host had, it still has, with all its connections. -/
def Host.Kept (h h' : Host) : Prop :=
  ∀ (life : Nat) (server : Server), h.lives[life]? = some server →
    ∃ server', h'.lives[life]? = some server' ∧ server.asked <+: server'.asked

theorem mem_lives (lives : h.server = some server) : server ∈ h.lives := by simp [Host.lives, lives]

private theorem kept_of_lives (same : h'.lives = h.lives) : h.Kept h' := fun _ server here =>
  ⟨server, same ▸ here, List.prefix_rfl⟩

/-- The last server of a host goes on, or a first one starts. -/
theorem kept_of_server (past : h'.past = h.past) (now : h'.server = some server')
    (grew : ∀ server, h.server = some server → server.asked <+: server'.asked) : h.Kept h' := by
  intro life server here
  unfold Host.lives at here ⊢
  rw [past, now]
  rcases Nat.lt_or_ge life h.past.length with old | late
  · rw [List.getElem?_append_left old] at here ⊢
    exact ⟨server, here, List.prefix_rfl⟩
  · rw [List.getElem?_append_right late] at here ⊢
    cases lives : h.server with
    | none =>
      rw [lives] at here
      cases here
    | some last =>
      rw [lives] at here
      cases place : life - h.past.length with
      | zero =>
        rw [place] at here
        cases here
        exact ⟨server', rfl, grew _ lives⟩
      | succ n =>
        rw [place] at here
        cases here

/-! ## The invariant -/

/-- The host has finished a task of this number. -/
def Reached (job : Job) (history : List Mark) (machine number : Text) : Prop :=
  ∃ k, .finished machine k ∈ history ∧ order (job.environ machine k) = number

/-- If the event is one that a plugin waits for, the host has finished a task of its number. -/
def Vouched (job : Job) (history : List Mark) (host text : Text) : Prop :=
  ∀ asker k, text = barrier (job.environ asker k) → Reached job history host (order (job.environ asker k))

/-- The plugin of a task was killed, or the task was over without it. -/
def CutShort (history : List Mark) (host : Text) (k : Nat) : Prop :=
  .killed host k ∈ history ∨ .skipped host k ∈ history

/-- The host need not wait any longer after a task. -/
def Released (job : Job) (history : List Mark) (host : Text) (k : Nat) : Prop :=
  .passed host k ∈ history ∨ CutShort history host k ∨ hasRoles (job.environ host k) = false ∨
    awaited (job.environ host k) = none

/-- A host passes when all its members have finished a task of the number. -/
def Passes (job : Job) (older : List Mark) (mark : Mark) : Prop :=
  ∀ host k, mark = .passed host k → ∀ machine ∈ members (job.environ host k),
    Reached job older machine (order (job.environ host k))

/-- What a host knows in a phase. -/
def Stage (job : Job) (history : List Mark) (host : Text) (k : Nat) : Phase → Prop
  | .restoring todo => ∀ name ∈ todo, Vouched job history host name.text
  | .running => True
  | .setting | .recording => .finished host k ∈ history
  | .blocking loop _ => ∃ b answers, awaited (job.environ host k) = some b ∧
      run (SyncScripts.step b) (SyncScripts.start b) answers = some loop ∧
      ∀ a ∈ answers, a.rc = 0 → Reached job history a.machine (order (job.environ host k))
  | .ended => Released job history host k

/-- What holds of a host between two events. -/
structure Fair (job : Job) (history : List Mark) (host : Text) (h : Host) : Prop where
  sound : ∀ server ∈ h.lives, SyncServer.Sound server
  events : ∀ server ∈ h.lives, ∀ text ∈ server.events, Vouched job history host text
  file : ∀ name ∈ h.file, Vouched job history host name.text
  bound : ∀ k, .finished host k ∈ history → k ≤ h.task
  within : 0 < h.task → h.task < (job.tasks host).length
  released : ∀ k < h.task, Released job history host k
  stage : Stage job history host h.task h.phase

/-- The question that is under way is the one of the loop. -/
def Linked (s : System) : Phase → Prop
  | .blocking loop (some conn) => ∃ server name machines states fail,
      (s.hosts conn.machine).lives[conn.life]? = some server ∧
      server.asked[conn.sockfd]? = some name ∧
      loop = .asking conn.machine machines name.text states fail
  | _ => True

structure Good (job : Job) (s : System) : Prop where
  fair : ∀ host, Fair job s.history host (s.hosts host)
  linked : ∀ host, Linked s (s.hosts host).phase
  passes : History.Always (Passes job) s.history

theorem Reached.mono {later : List Mark} (reached : Reached job history machine number)
    (more : history ⊆ later) : Reached job later machine number := by
  obtain ⟨k, member, same⟩ := reached
  exact ⟨k, more member, same⟩

theorem Vouched.mono {later : List Mark} (vouched : Vouched job history host x)
    (more : history ⊆ later) : Vouched job later host x := fun asker k same =>
  (vouched asker k same).mono more

theorem Released.mono {later : List Mark} (released : Released job history host k)
    (more : history ⊆ later) : Released job later host k := by
  rcases released with passed | cut | rest
  · exact .inl (more passed)
  · exact .inr (.inl (cut.imp (@more _) (@more _)))
  · exact .inr (.inr rest)

theorem Stage.mono {later : List Mark} {phase : Phase} (stage : Stage job history host k phase)
    (more : history ⊆ later) : Stage job later host k phase := by
  cases phase with
  | restoring todo => exact fun name member => (stage name member).mono more
  | running => trivial
  | setting => exact more stage
  | recording => exact more stage
  | blocking loop conn =>
    obtain ⟨b, answers, waits, ran, answered⟩ := stage
    exact ⟨b, answers, waits, ran, fun a member success => (answered a member success).mono more⟩
  | ended => exact Released.mono stage more

/-- One mark more, which no host that has not come so far has made. -/
theorem Fair.marked (fair : Fair job history host h)
    (bound : ∀ k, mark = .finished host k → k ≤ h.task) : Fair job (mark :: history) host h where
  sound := fair.sound
  events := fun server member text held =>
    (fair.events server member text held).mono (List.subset_cons_self ..)
  file := fun name member => (fair.file name member).mono (List.subset_cons_self ..)
  bound := by
    intro k member
    rcases List.mem_cons.mp member with same | old
    · exact bound k same.symm
    · exact fair.bound k old
  within := fair.within
  released := fun k early => (fair.released k early).mono (List.subset_cons_self ..)
  stage := fair.stage.mono (List.subset_cons_self ..)

private theorem mark_good (good : Good job s)
    (bound : ∀ host k, mark = .finished host k → k ≤ (s.hosts host).task)
    (passes : Passes job s.history mark) : Good job (s.mark mark) where
  fair := fun host => (good.fair host).marked (bound host)
  linked := good.linked
  passes := ⟨passes, good.passes⟩

/-- A connection stays what it is when its server goes on. -/
theorem Linked.kept {phase : Phase} (linked : Linked s phase) (kept : (s.hosts host).Kept h) :
    Linked (s.put host h) phase := by
  unfold Linked at linked ⊢
  split at linked
  · rename_i loop conn
    obtain ⟨server, name, machines, states, fail, here, asked, same⟩ := linked
    dsimp only [System.put]
    by_cases own : conn.machine = host
    · rw [own] at here
      obtain ⟨server', there, grew⟩ := kept _ _ here
      refine ⟨server', name, machines, states, fail, ?_, ?_, same⟩
      · rw [own, Function.update_self, there]
      · obtain ⟨rest, longer⟩ := grew
        rw [← longer, List.getElem?_append_left (List.getElem?_eq_some_iff.mp asked).1, asked]
    · exact ⟨server, name, machines, states, fail, by rw [Function.update_of_ne own, here], asked, same⟩
  · trivial

/-- One host goes on, and keeps its servers. -/
theorem put_good (good : Good job s) (fair : Fair job s.history host h)
    (kept : (s.hosts host).Kept h) (linked : Linked (s.put host h) h.phase) :
    Good job (s.put host h) where
  fair := by
    intro other
    by_cases own : other = host
    · subst own
      simpa [System.put] using fair
    · simpa [System.put, Function.update_of_ne own] using good.fair other
  linked := by
    intro other
    by_cases own : other = host
    · subst own
      simpa [System.put] using linked
    · have old := (good.linked other).kept kept
      simpa [System.put, Function.update_of_ne own] using old
  passes := good.passes

/-! ## What a host does -/

theorem Fair.move {phase : Phase} (fair : Fair job history host h)
    (stage : Stage job history host h.task phase) : Fair job history host { h with phase := phase } where
  sound := fair.sound
  events := fair.events
  file := fair.file
  bound := fair.bound
  within := fair.within
  released := fair.released
  stage := stage

theorem Fair.note (fair : Fair job history host h) (vouched : Vouched job history host name.text) :
    Fair job history host { h with file := h.file ++ [name] } where
  sound := fair.sound
  events := fair.events
  file := by
    intro name' member
    rcases List.mem_append.mp member with old | new
    · exact fair.file name' old
    · rwa [List.mem_singleton.mp new]
  bound := fair.bound
  within := fair.within
  released := fair.released
  stage := fair.stage

/-- The last server is the only one that changes. -/
theorem Fair.serve (fair : Fair job history host h) (sound : SyncServer.Sound server)
    (vouched : ∀ text ∈ server.events, Vouched job history host text) :
    Fair job history host { h with server := some server } where
  sound := by
    intro server' member
    rcases List.mem_append.mp member with old | new
    · exact fair.sound server' (List.mem_append_left _ old)
    · rwa [List.mem_singleton.mp new]
  events := by
    intro server' member
    rcases List.mem_append.mp member with old | new
    · exact fair.events server' (List.mem_append_left _ old)
    · rwa [List.mem_singleton.mp new]
  file := fair.file
  bound := fair.bound
  within := fair.within
  released := fair.released
  stage := fair.stage

/-- The server that runs, or a new one. -/
theorem Fair.current (fair : Fair job history host h) : SyncServer.Sound (h.server.getD Sync.start) ∧
    ∀ text ∈ (h.server.getD Sync.start).events, Vouched job history host text := by
  cases lives : h.server with
  | none => exact ⟨SyncServer.start_sound, fun _ member => by cases member⟩
  | some server =>
    exact ⟨fair.sound server (mem_lives lives), fair.events server (mem_lives lives)⟩

@[simp] theorem post_task : (h.post name).task = h.task := by
  unfold Host.post
  split <;> rfl

@[simp] theorem post_phase : (h.post name).phase = h.phase := by
  unfold Host.post
  split <;> rfl

theorem Fair.post (fair : Fair job history host h) (vouched : Vouched job history host name.text) :
    Fair job history host (h.post name) := by
  unfold Host.post
  split
  · exact ⟨fair.sound, fair.events, fair.file, fair.bound, fair.within, fair.released, fair.stage⟩
  obtain ⟨sound, events⟩ := fair.current
  refine fair.serve (SyncServer.handleLconn_sound sound) ?_
  intro text member
  rw [SyncServer.handleLconn_eq sound] at member
  rcases List.mem_insert_iff.mp member with rfl | old
  · exact vouched
  · exact events text old

private theorem post_kept (fair : Fair job history host h) : h.Kept (h.post name) := by
  unfold Host.post
  split
  · exact kept_of_lives rfl
  refine kept_of_server rfl rfl fun server lives => ?_
  rw [lives, Option.getD_some, SyncServer.handleLconn_eq]
  exact fair.sound server (mem_lives lives)

theorem Fair.reboot (fair : Fair job history host h) (stale : Bool) : Fair job history host
    { h with past := h.lives, server := none, stale := stale, phase := .restoring h.file } where
  sound := fun server member => fair.sound server (by simpa [Host.lives] using member)
  events := fun server member => fair.events server (by simpa [Host.lives] using member)
  file := fair.file
  bound := fair.bound
  within := fair.within
  released := fair.released
  stage := fair.file

theorem Fair.next (fair : Fair job history host h) (gone : Released job history host h.task)
    (more : h.task + 1 < (job.tasks host).length) :
    Fair job history host { h with task := h.task + 1, phase := .restoring h.file } where
  sound := fair.sound
  events := fair.events
  file := fair.file
  bound := fun k member => Nat.le_succ_of_le (fair.bound k member)
  within := fun _ => more
  released := by
    intro k early
    rcases Nat.lt_succ_iff_lt_or_eq.mp early with old | rfl
    · exact fair.released k old
    · exact gone
  stage := fair.file

/-- The plugin's own event, once the task is over. -/
theorem vouched_barrier (finished : .finished host k ∈ history) :
    Vouched job history host (barrier (job.environ host k)) := fun _ _ same =>
  ⟨k, finished, (event_injective order_noUnderscore order_noUnderscore same).1⟩

private theorem getenv_taskorder (job : Job) (host : Text) (k : Nat) :
    getenv TASKORDER (job.environ host k) = [] ∨
      getenv TASKORDER (job.environ host k) = Decimal.print (2 * k) := by
  unfold Job.environ
  cases place : (job.tasks host)[k]? with
  | none => exact .inl rfl
  | some environ => exact job.ordered host k environ place

/-- Tasks have even numbers, plugins odd ones. -/
theorem order_cases (job : Job) (host : Text) (k : Nat) :
    order (job.environ host k) = Decimal.print 1 ∨
      order (job.environ host k) = Decimal.print (2 * k + 1) := by
  unfold order expr
  rcases getenv_taskorder job host k with unset | set
  · rw [unset]
    exact .inl rfl
  · have digits : (Decimal.print (2 * k)).all Char.isDigit = true :=
      List.all_eq_true.mpr fun _ member => Decimal.isDigit_of_mem_print member
    rw [set, if_pos digits, Decimal.value_print]
    exact .inr rfl

/-- A task's own states are no events of the plugin. -/
theorem vouched_own (own : job.own host k name = true) : Vouched job history host name.text := by
  intro asker j same
  exfalso
  obtain ⟨rest, shape⟩ := List.isPrefixOf_iff_prefix.mp (Bool.and_eq_true_iff.mp own).1
  have joined : event (getenv TASKORDER (job.environ host k)) rest = barrier (job.environ asker j) := by
    rw [← same, ← shape, event, event, List.append_assoc]
    rfl
  have plain : '_' ∉ getenv TASKORDER (job.environ host k) := by
    intro member
    rcases getenv_taskorder job host k with unset | set
    · rw [unset] at member
      cases member
    · rw [set] at member
      exact absurd (Decimal.isDigit_of_mem_print member) (by decide)
  have even := (event_injective plain order_noUnderscore joined).1
  rcases getenv_taskorder job host k with unset | set <;>
    rcases order_cases job asker j with one | odd
  · rw [unset, one] at even
    exact Decimal.print_ne_nil even.symm
  · rw [unset, odd] at even
    exact Decimal.print_ne_nil even.symm
  · rw [set, one] at even
    have same := Decimal.print_injective even
    omega
  · rw [set, odd] at even
    have same := Decimal.print_injective even
    omega

/-! ## Steps -/

/-- The plugin asks for one event only. -/
theorem asked_barrier {machines states : List Text} {fail : Bool} {conn : Option Conn}
    (stage : Stage job history host k (.blocking (.asking machine machines state states fail) conn)) :
    state = barrier (job.environ host k) := by
  obtain ⟨b, answers, waits, ran, -⟩ := stage
  obtain ⟨-, named, -, -, asks⟩ := awaited_spec waits
  obtain ⟨-, -, -, passed, -, -, split, -⟩ := run_progress asks ran
  have member : state ∈ b.states := by
    rw [split]
    exact List.mem_append_right _ List.mem_cons_self
  rw [named] at member
  exact List.mem_singleton.mp member

theorem lives_put {phase : Phase} :
    ((s.put host { s.hosts host with phase := phase }).hosts machine).lives = (s.hosts machine).lives := by
  by_cases own : machine = host
  · subst own
    simp [System.put, Host.lives]
  · simp [System.put, Function.update_of_ne own]

/-- An answer is believed when it comes from a host that has finished a task of the number. -/
theorem answered_good {loop : Loop} {conn : Option Conn} {rc time : Nat} (good : Good job s)
    (phase : (s.hosts host).phase = .blocking loop conn)
    (waits : awaited (job.environ host (s.hosts host).task) = some b)
    (reached : ∀ machine machines state states fail, loop = .asking machine machines state states fail →
      rc = 0 → Reached job s.history machine (order (job.environ host (s.hosts host).task)))
    (asking : ∀ rc, loop ≠ .left rc) : Good job (s.answered b host loop rc time) := by
  have fair := good.fair host
  obtain ⟨b', answers, waits', ran, heard⟩ := by simpa only [phase] using fair.stage
  obtain rfl := Option.some.inj (waits.symm.trans waits')
  obtain ⟨machines, states, all, untimed, asks⟩ := awaited_spec waits
  cases loop with
  | left rc => exact absurd rfl (asking rc)
  | asking machine others state later fail =>
    have onward : run (SyncScripts.step b) (SyncScripts.start b) (answers ++ [⟨machine, state, rc, time⟩]) =
        some (SyncScripts.answered b (.asking machine others state later fail) rc time) :=
      run_append.mpr ⟨_, ran, by simp [run, SyncScripts.step]⟩
    have told : ∀ a ∈ answers ++ [⟨machine, state, rc, time⟩], a.rc = 0 →
        Reached job s.history a.machine (order (job.environ host (s.hosts host).task)) := by
      intro a member success
      rcases List.mem_append.mp member with old | new
      · exact heard a old success
      · obtain rfl := List.mem_singleton.mp new
        exact reached _ _ _ _ _ rfl success
    have progress := run_progress asks onward
    unfold System.answered
    cases result : SyncScripts.answered b (.asking machine others state later fail) rc time with
    | asking machine' others' state' later' fail' =>
      rw [result] at onward
      refine put_good good (fair.move ?_) (kept_of_lives rfl) trivial
      exact ⟨b, _, waits, onward, told⟩
    | left rc' =>
      rw [result] at progress
      by_cases success : rc' = 0
      · subst success
        simp only [Progress, if_true, Succeeds, all, Bool.false_eq_true, if_false] at progress
        obtain ⟨before, round, split, -, rounds⟩ := progress
        have passes : Passes job s.history (.passed host (s.hosts host).task) := by
          intro host' k same machine' member
          obtain ⟨rfl, rfl⟩ := Mark.passed.inj same
          rw [← machines] at member
          obtain ⟨a, held, rfl, -, success⟩ := rounds.answer member
          exact told a (split ▸ List.mem_append_right _ held) success
        have marked := mark_good good (fun _ _ same => by cases same) passes
        have ended : Stage job (s.mark (.passed host (s.hosts host).task)).history host
            (s.hosts host).task .ended := .inl List.mem_cons_self
        exact put_good marked ((marked.fair host).move ended) (kept_of_lives rfl) trivial
      · simp only [Progress, if_neg success] at progress
        obtain ⟨-, earlier, refused, last, limit, -, -, -, -, timed, -⟩ := progress
        rw [untimed] at timed
        cases timed

theorem start_good : Good job start where
  fair := fun host =>
    { sound := fun _ member => by cases member
      events := fun _ member => by cases member
      file := fun _ member => by cases member
      bound := fun _ member => by cases member
      within := fun more => absurd more (Nat.lt_irrefl 0)
      released := fun _ early => by cases early
      stage := fun _ member => by cases member }
  linked := fun _ => trivial
  passes := trivial

private theorem serve_good (good : Good job s) (lives : (s.hosts host).server = some server)
    (sound : SyncServer.Sound server') (grew : Grew server server') : Good job (s.serve host server') := by
  have member : server ∈ (s.hosts host).lives := mem_lives lives
  have fair := (good.fair host).serve sound fun text held =>
    (good.fair host).events server member text (grew.events ▸ held)
  have kept : (s.hosts host).Kept { s.hosts host with server := some server' } := by
    refine kept_of_server rfl rfl fun last same => ?_
    cases lives.symm.trans same
    exact grew.asked
  exact put_good good fair kept ((good.linked host).kept kept)

/-- Every event keeps the invariant; each phase of a host has the lemma of what the host does in it. -/
theorem step_good (good : Good job s) (taken : step job s e = some t) : Good job t := by
  cases e with
  | restore host =>
    have fair := good.fair host
    simp only [step] at taken
    split at taken
    · rename_i name todo phase
      cases taken
      have stage : Stage job s.history host _ (.restoring (name :: todo)) := phase ▸ fair.stage
      refine put_good good ((fair.post (stage name List.mem_cons_self)).move ?_) (post_kept fair) trivial
      exact fun name member => stage name (List.mem_cons_of_mem _ member)
    · cases taken
      exact put_good good (fair.move trivial) (kept_of_lives rfl) trivial
    · cases taken
  | expire host =>
    simp only [step] at taken
    split at taken
    · cases taken
      exact put_good good ((good.fair host).move trivial) (kept_of_lives rfl) trivial
    · cases taken
  | post host name =>
    have fair := good.fair host
    simp only [step] at taken
    split at taken
    · split at taken
      · rename_i own
        cases taken
        have kept : (s.hosts host).Kept ((s.hosts host).post name) := post_kept fair
        refine put_good good (fair.post (vouched_own own)) kept ?_
        rw [post_phase]
        exact (good.linked host).kept kept
      · cases taken
    · cases taken
  | note host name =>
    have fair := good.fair host
    simp only [step] at taken
    split at taken
    · split at taken
      · rename_i own
        cases taken
        have kept : (s.hosts host).Kept { s.hosts host with file := (s.hosts host).file ++ [name] } :=
          kept_of_lives rfl
        exact put_good good (fair.note (vouched_own own)) kept ((good.linked host).kept kept)
      · cases taken
    · cases taken
  | finish host =>
    simp only [step] at taken
    split at taken
    · cases taken
      have bound : ∀ host' k, Mark.finished host (s.hosts host).task = .finished host' k →
          k ≤ (s.hosts host').task := by
        rintro host' k same
        cases same
        exact Nat.le_refl _
      have marked := mark_good good bound fun _ _ same => by cases same
      refine put_good marked ((marked.fair host).move ?_) (kept_of_lives rfl) ?_
      · split
        · exact List.mem_cons_self
        · rename_i none
          exact .inr (.inr (.inl (Bool.eq_false_iff.mpr none)))
      · dsimp only
        split <;> trivial
    · cases taken
  | set host name =>
    have fair := good.fair host
    simp only [step] at taken
    split at taken
    · rename_i phase
      split at taken
      · rename_i own
        cases taken
        have finished : Stage job s.history host _ .setting := phase ▸ fair.stage
        have vouched : Vouched job s.history host name.text := by
          rw [posted_eq] at own
          rw [← Option.some.inj own]
          exact vouched_barrier finished
        refine put_good good ((fair.post vouched).move ?_) (post_kept fair) trivial
        rw [post_task]
        exact finished
      · cases taken
    · cases taken
  | record host name =>
    have fair := good.fair host
    simp only [step] at taken
    split at taken
    · rename_i phase
      split at taken
      · rename_i own
        cases taken
        have finished : Stage job s.history host _ .recording := phase ▸ fair.stage
        have vouched : Vouched job s.history host name.text := by
          rw [posted_eq] at own
          rw [← Option.some.inj own]
          exact vouched_barrier finished
        refine put_good good ((fair.note vouched).move ?_) (kept_of_lives rfl) ?_
        · dsimp only
          split
          · rename_i b waits
            exact ⟨b, [], waits, rfl, fun _ member => by cases member⟩
          · rename_i none
            exact .inr (.inr (.inr none))
        · dsimp only
          split <;> trivial
      · cases taken
    · cases taken
  | ask host name failed =>
    simp only [step] at taken
    split at taken
    · rename_i machine machines state states fail phase
      split at taken
      · rename_i server lives
        split at taken
        · rename_i same
          obtain ⟨server', served, rfl⟩ := Option.map_eq_some_iff.mp taken
          have member : server ∈ (s.hosts machine).lives := mem_lives lives
          have sound := SyncServer.step_sound ((good.fair machine).sound server member) served
          have grew := step_grew served fun _ same => by cases same
          have good := serve_good good lives sound grew
          have fair := good.fair host
          have stage : Stage job s.history host ((s.serve machine server').hosts host).task
              (.blocking (.asking machine machines state states fail) none) := by
            have before := good.fair host
            by_cases own : host = machine
            · subst own
              have stage := before.stage
              simpa [System.serve, System.put, phase] using stage
            · have stage := before.stage
              simpa [System.serve, System.put, Function.update_of_ne own, phase] using stage
          refine put_good good (fair.move stage) (kept_of_lives rfl) ?_
          have here : ((s.serve machine server').hosts machine).lives[
              ((s.serve machine server').hosts machine).past.length]? = some server' := by
            simp [System.serve, System.put, Host.lives]
          refine ⟨server', name, machines, states, fail, ?_, step_asked served, by rw [same]⟩
          rw [lives_put]
          exact here
        · cases taken
      · cases taken
    · cases taken
  | refuse host time =>
    simp only [step] at taken
    split at taken
    · rename_i phase waits
      cases taken
      exact answered_good good phase waits (fun _ _ _ _ _ _ success => by cases success)
        fun _ same => by cases same
    · cases taken
  | answer host received time =>
    simp only [step] at taken
    split at taken
    · rename_i machine machines state states fail conn b phase waits
      split at taken
      · rename_i server here
        split at taken
        · rename_i delivered
          cases taken
          refine answered_good good phase waits ?_ fun _ same => by cases same
          intro machine' machines' state' states' fail' same success
          cases same
          obtain ⟨server', name, machines', states', fail', there, asked, same⟩ := by
            simpa only [Linked, phase] using good.linked host
          cases same
          obtain rfl := Option.some.inj (here.symm.trans there)
          have sound := (good.fair conn.machine).sound server (List.mem_of_getElem? here)
          have named := asked_barrier (phase ▸ (good.fair host).stage)
          have distinct : '_' ∈ name.text := by
            rw [named]
            exact List.mem_append_right _ List.mem_cons_self
          have set := set_of_block sound asked distinct delivered success
          exact (good.fair conn.machine).events server (List.mem_of_getElem? here) _ set host _ named
        · cases taken
      · cases taken
    · cases taken
  | kill host =>
    have killed : Good job (s.mark (.killed host (s.hosts host).task)) :=
      mark_good good (fun _ _ same => by cases same) fun _ _ same => by cases same
    have ended : Stage job (s.mark (.killed host (s.hosts host).task)).history host
        (s.hosts host).task .ended := .inr (.inl (.inl List.mem_cons_self))
    have gone := put_good killed ((killed.fair host).move ended) (kept_of_lives rfl) trivial
    simp only [step] at taken
    split at taken <;> cases taken <;> exact gone
  | skip host =>
    have skipped : Good job (s.mark (.skipped host (s.hosts host).task)) :=
      mark_good good (fun _ _ same => by cases same) fun _ _ same => by cases same
    have ended : Stage job (s.mark (.skipped host (s.hosts host).task)).history host
        (s.hosts host).task .ended := .inr (.inl (.inr List.mem_cons_self))
    have gone := put_good skipped ((skipped.fair host).move ended) (kept_of_lives rfl) trivial
    simp only [step] at taken
    split at taken
    · split at taken <;> cases taken
      exact gone
    · cases taken
  | next host =>
    simp only [step] at taken
    split at taken
    · rename_i phase
      split at taken
      · rename_i more
        cases taken
        have ended : Stage job s.history host _ .ended := phase ▸ (good.fair host).stage
        exact put_good good ((good.fair host).next ended more) (kept_of_lives rfl) trivial
      · cases taken
    · cases taken
  | reboot host =>
    cases taken
    refine put_good good ((good.fair host).reboot _) (kept_of_lives ?_) trivial
    simp [Host.lives]
  | crash host =>
    cases taken
    refine put_good good ((good.fair host).reboot _) (kept_of_lives ?_) trivial
    simp [Host.lives]
  | remove host =>
    have fair := good.fair host
    simp only [step] at taken
    split at taken
    · cases taken
      have kept : (s.hosts host).Kept { s.hosts host with stale := false } := kept_of_lives rfl
      have same : Fair job s.history host { s.hosts host with stale := false } :=
        ⟨fair.sound, fair.events, fair.file, fair.bound, fair.within, fair.released, fair.stage⟩
      exact put_good good same kept ((good.linked host).kept kept)
    · cases taken
  | remote host event =>
    simp only [step] at taken
    split at taken
    · cases taken
    · cases taken
    · rename_i server unset lives
      obtain ⟨server', served, rfl⟩ := Option.map_eq_some_iff.mp taken
      have member : server ∈ (s.hosts host).lives := mem_lives lives
      exact serve_good good lives (SyncServer.step_sound ((good.fair host).sound server member) served)
        (step_grew served unset)

/-! ## Runs -/

/-- The tasks of a host are told their numbers. -/
def Numbered (job : Job) (host : Text) : Prop :=
  ∀ k < (job.tasks host).length, getenv TASKORDER (job.environ host k) = Decimal.print (2 * k)

/-- After each of its tasks a host waits for another one. -/
def WaitsFor (job : Job) (host machine : Text) : Prop :=
  ∀ k < (job.tasks host).length, hasRoles (job.environ host k) = true ∧
    machine ∈ members (job.environ host k)

private theorem order_numbered (numbered : Numbered job host) (within : k < (job.tasks host).length) :
    order (job.environ host k) = Decimal.print (2 * k + 1) := by
  have digits : (Decimal.print (2 * k)).all Char.isDigit = true :=
    List.all_eq_true.mpr fun _ member => Decimal.isDigit_of_mem_print member
  rw [order, expr, numbered k within, if_pos digits, Decimal.value_print]

theorem Good.in_step (good : Good job s) (own : Numbered job host) (others : Numbered job machine)
    (waits : WaitsFor job host machine)
    (whole : ∀ k, CutShort s.history host k → .passed host k ∈ s.history) :
    (s.hosts host).task ≤ (s.hosts machine).task + 1 := by
  cases task : (s.hosts host).task with
  | zero => exact Nat.zero_le _
  | succ k =>
    apply Nat.succ_le_succ
    have fair := good.fair host
    have within : k < (job.tasks host).length := by
      have bound := fair.within (by omega)
      omega
    obtain ⟨roles, member⟩ := waits k within
    have passed : Mark.passed host k ∈ s.history := by
      rcases fair.released k (by omega) with passed | cut | none | none
      · exact passed
      · exact whole k cut
      · rw [roles] at none
        cases none
      · rw [members, none] at member
        cases member
    obtain ⟨older, earlier, passes⟩ := History.always_of_mem good.passes passed
    obtain ⟨j, finished, same⟩ := passes host k rfl machine member
    have reached := (good.fair machine).bound j (earlier finished)
    rw [order_numbered own within] at same
    rcases Nat.lt_or_ge j (job.tasks machine).length with known | beyond
    · rw [order_numbered others known] at same
      have equal := Decimal.print_injective same
      omega
    · rw [Job.environ, List.getElem?_eq_none beyond] at same
      have first : 1 = 2 * k + 1 := Decimal.print_injective same
      omega

/-- Three tasks of two hosts that wait for each other. -/
def pairTasks : List (List Text) := [0, 1, 2].map fun k =>
  [TASKORDER ++ '=' :: Decimal.print (2 * k), "SERVERS=a".toList, "CLIENTS=b".toList]

def pairJob : Job where
  tasks := fun _ => pairTasks
  ordered := by
    intro host k environ here
    match k, here with
    | 0, rfl => exact .inr (by decide)
    | 1, rfl => exact .inr (by decide)
    | 2, rfl => exact .inr (by decide)
    | k + 3, here => cases here
  bounded := by
    intro host
    rw [pairTasks, List.length_map]
    decide

def firstDone : Name := ⟨"1_DONE".toList, by decide, by decide, by decide⟩

/-- A host comes to the end of its task. -/
def ends (host : Text) : List Event :=
  [.restore host, .finish host, .set host firstDone, .record host firstDone]

/-- A host hears from both that they have posted. -/
def hears (host : Text) : List Event :=
  [.ask host firstDone [], .answer host [message firstDone.text] 0,
    .ask host firstDone [], .answer host [message firstDone.text] 0]

section Environment
open Restraint.Env (Settings buildEnv valuesOf assigned assignment legacyVariables taskVariables)

variable {settings : Settings} {task : Harness.Task}

/-- The variables of a task by the name without the prefix. -/
theorem taskorder_assigned (settings : Settings) :
    assigned (((if task.rhtsCompat then legacyVariables settings task else []) ++
      taskVariables settings task).filter fun entry => entry.1 = TASKORDER) =
      if task.rhtsCompat then [assignment TASKORDER (printInt settings.order)] else [] := by
  cases compat : task.rhtsCompat <;> rfl

private theorem valuesOf_taskorder (leaves : settings.leaves TASKORDER) :
    valuesOf TASKORDER (buildEnv settings task) =
      if task.rhtsCompat then [assignment TASKORDER (printInt settings.order)] else [] := by
  have same : (valuesOf TASKORDER (buildEnv settings task)).Perm _ :=
    Env.valuesOf_buildEnv leaves (by decide)
  rw [taskorder_assigned] at same
  cases compat : task.rhtsCompat with
  | false =>
    rw [compat] at same
    exact same.eq_nil
  | true =>
    rw [compat] at same
    exact List.perm_singleton.mp same

/-- `build_env` tells only the tasks of the old kind their numbers. -/
theorem getenv_buildEnv (leaves : settings.leaves TASKORDER) :
    getenv TASKORDER (buildEnv settings task) =
      if task.rhtsCompat then printInt settings.order else [] := by
  unfold getenv
  rw [← List.head?_filter, ← valuesOf, valuesOf_taskorder leaves]
  cases task.rhtsCompat
  · rfl
  · simp [assignment]

end Environment

end Restraint.Multihost
