import Restraint.Sync
import Mathlib.Data.List.Nodup
import Mathlib.Data.List.Flatten

/-! What the server owes a client that waits: an answer when its event has been set, once, and
nothing but PINGs before. Neither handler loses a client that is still there. The order in which
connections are served is open, and so is what they send. An invariant over the waiting list and the
events that are set carries both directions. -/
namespace Restraint.SyncServer
open CString (Text)
open Transition
open Restraint.Sync

/-- How the server stands with a client that asked for an event. -/
inductive Standing (s : Server) (sockfd : Nat) (name : Name) : Prop where
  | waiting (n : Nat) (listed : ⟨name.text, sockfd⟩ ∈ s.wlist) (unset : name.text ∉ s.events)
      (pinged : replies s sockfd = List.replicate n ping)
  | answered (n : Nat) (unlisted : ∀ w ∈ s.wlist, w.sockfd ≠ sockfd) (set : name.text ∈ s.events)
      (told : replies s sockfd = List.replicate n ping ++ [message name.text])
  | dropped (n : Nat) (unlisted : ∀ w ∈ s.wlist, w.sockfd ≠ sockfd) (gone : sockfd ∈ s.gone)
      (pinged : replies s sockfd = List.replicate n ping)

/-- What holds of the server between two events. -/
structure Sound (s : Server) : Prop where
  standing : ∀ sockfd name, s.asked[sockfd]? = some name → Standing s sockfd name
  listed : ∀ w ∈ s.wlist, ∃ name, s.asked[w.sockfd]? = some name ∧ w.event = name.text
  distinct : (s.wlist.map Wentry.sockfd).Nodup
  sent : ∀ sent ∈ s.sent, sent.1 < s.asked.length

variable {s t : Server} {e : Event} {es : List Event} {name : Name} {sockfd : Nat}
variable {wlist : List Wentry} {p : Wentry → Bool} {w : Wentry} {bytes : List Char}

/-! ## The buffer and the loops -/

theorem takeWhile_name (rest : List Char) :
    (name.text ++ NUL :: rest).takeWhile (· ≠ NUL) = name.text := by
  rw [List.takeWhile_append_of_pos]
  · simp
  · intro c member
    rw [decide_eq_true_iff]
    rintro rfl
    exact name.noNul member

/-- The NUL of a message lies in the buffer, maybe at its end. -/
theorem take_message (name : Name) : (message name.text).take (BUFSIZE - 1) = name.text ∨
    (message name.text).take (BUFSIZE - 1) = message name.text := by
  have short := name.short
  rcases Nat.lt_or_ge name.text.length (BUFSIZE - 1) with less | full
  · refine .inr (List.take_of_length_le ?_)
    rw [message, List.length_append]
    exact less
  · refine .inl ?_
    rw [message, List.take_append_of_le_length full]
    exact List.take_of_length_le (Nat.le_sub_one_of_lt short)

theorem bufString_message : bufString (message name.text) = name.text := by
  unfold bufString terminate
  rcases take_message name with cut | cut <;> rw [cut]
  · exact takeWhile_name []
  · rw [message, List.append_assoc]
    exact takeWhile_name [NUL]

private theorem reply_message : reply (message name.text) = message name.text := by
  unfold reply terminate
  rcases take_message name with cut | cut <;> rw [cut]
  · exact List.take_length
  · exact List.take_left

private theorem mem_collect : w ∈ collect p wlist ↔ w ∈ wlist ∧ p w = true := by
  suffices general : ∀ rlist, w ∈ wlist.foldl (fun rlist w => if p w then w :: rlist else rlist) rlist ↔
      w ∈ rlist ∨ w ∈ wlist ∧ p w = true by
    simpa [collect] using general []
  induction wlist with
  | nil => simp
  | cons first rest ih =>
    intro rlist
    rw [List.foldl_cons, ih]
    cases take : p first <;> grind

/-- Removing while iterating drops the right entries. -/
theorem removeAll_collect (distinct : wlist.Nodup) :
    removeAll wlist (collect p wlist) = wlist.filter fun w => !p w := by
  rw [removeAll, ← List.diff_eq_foldl, distinct.sdiff_eq_filter]
  apply List.filter_congr
  intro w member
  rw [Bool.eq_iff_iff, decide_eq_true_iff, mem_collect, Bool.not_eq_true', Bool.eq_false_iff]
  exact ⟨fun absent held => absent ⟨member, held⟩, fun free ⟨_, held⟩ => free held⟩

theorem Sound.nodup (sound : Sound s) : s.wlist.Nodup := .of_map _ sound.distinct

/-- What a handler sends to the entries of the waiting list. -/
theorem replies_append {more : List (Nat × List Char)} :
    replies { s with sent := s.sent ++ more } sockfd =
      replies s sockfd ++ (more.filter fun sent => sent.1 = sockfd).map Prod.snd := by
  rw [replies, List.filter_append, List.map_append, replies]

/-- A client with no entry is sent nothing. -/
theorem sends_unlisted (unlisted : ∀ w ∈ wlist, w.sockfd ≠ sockfd) :
    (((wlist.filter p).map fun w => (w.sockfd, bytes)).filter fun sent => sent.1 = sockfd) = [] := by
  rw [List.filter_eq_nil_iff]
  intro sent member
  obtain ⟨w, held, rfl⟩ := List.mem_map.mp member
  simpa using unlisted w (List.mem_of_mem_filter held)

/-- A client with an entry is sent one message, if the entry is chosen. -/
theorem sends_listed (distinct : (wlist.map Wentry.sockfd).Nodup) (member : w ∈ wlist) :
    ((((wlist.filter p).map fun w => (w.sockfd, bytes)).filter fun sent => sent.1 = w.sockfd).map
      Prod.snd) = if p w then [bytes] else [] := by
  induction wlist with
  | nil => cases member
  | cons first rest ih =>
    obtain ⟨absent, distinct⟩ := List.nodup_cons.mp distinct
    rcases List.mem_cons.mp member with rfl | member
    · have others : ∀ other ∈ rest, other.sockfd ≠ w.sockfd := fun other held same =>
        absent (List.mem_map.mpr ⟨other, held, same⟩)
      cases chosen : p w <;> simp [chosen, sends_unlisted others]
    · have apart : first.sockfd ≠ w.sockfd := fun same =>
        absent (List.mem_map.mpr ⟨w, member, same.symm⟩)
      rw [← ih distinct member]
      cases chosen : p first <;> simp [chosen, apart]

/-! ## Steps -/

theorem Sound.named (sound : Sound s) (asked : s.asked[sockfd]? = some name)
    (member : w ∈ s.wlist) (same : w.sockfd = sockfd) : w.event = name.text := by
  obtain ⟨name', asked', event⟩ := sound.listed w member
  rw [same, asked] at asked'
  cases asked'
  exact event

/-- A message to some of the entries of the list, which stay or go. -/
theorem replies_sends (bytes : List Char) (sound : Sound s) (member : w ∈ s.wlist)
    (same : w.sockfd = sockfd) :
    replies { s with sent := s.sent ++ (s.wlist.filter p).map fun w => (w.sockfd, bytes) } sockfd =
      replies s sockfd ++ if p w then [bytes] else [] := by
  rw [replies_append, ← same, sends_listed sound.distinct member]

private theorem replies_unlisted (unlisted : ∀ w ∈ s.wlist, w.sockfd ≠ sockfd) :
    replies { s with sent := s.sent ++ (s.wlist.filter p).map fun w => (w.sockfd, bytes) } sockfd =
      replies s sockfd := by
  rw [replies_append, sends_unlisted unlisted, List.map_nil, List.append_nil]

private theorem replicate_ping (n : Nat) :
    List.replicate n ping ++ [ping] = List.replicate (n + 1) ping := List.replicate_succ'.symm

/-- The pass that sends PINGs and drops the entries on which that fails. -/
def pinged (s : Server) (failed : List Nat) : Server :=
  { s with
    sent := s.sent ++ (s.wlist.filter fun w => !failed.contains w.sockfd).map fun w => (w.sockfd, ping)
    wlist := s.wlist.filter fun w => !failed.contains w.sockfd }

theorem pinged_sound {failed : List Nat} (sound : Sound s) (dead : ∀ sockfd ∈ failed, sockfd ∈ s.gone) :
    Sound (pinged s failed) where
  standing := by
    intro sockfd name asked
    cases sound.standing sockfd name asked with
    | waiting n listed unset told =>
      have sends := replies_sends ping (p := fun w => !failed.contains w.sockfd) sound
        listed rfl
      by_cases fails : sockfd ∈ failed
      · -- PING fails, so the client has gone
        refine .dropped n ?_ (dead sockfd fails) ?_
        · rintro w member rfl
          have kept := (List.mem_filter.mp member).2
          simp [fails] at kept
        · apply sends.trans
          rw [told]
          simp [fails]
      · refine .waiting (n + 1) ?_ unset ?_
        · exact List.mem_filter.mpr ⟨listed, by simpa using fails⟩
        · apply sends.trans
          rw [told, ← replicate_ping]
          simp [fails]
    | answered n unlisted set told =>
      exact .answered n (fun w member => unlisted w (List.mem_of_mem_filter member)) set
        ((replies_unlisted unlisted).trans told)
    | dropped n unlisted gone told =>
      exact .dropped n (fun w member => unlisted w (List.mem_of_mem_filter member)) gone
        ((replies_unlisted unlisted).trans told)
  listed := fun w member => sound.listed w (List.mem_of_mem_filter member)
  distinct := sound.distinct.sublist (List.filter_sublist.map _)
  sent := by
    intro sent member
    rcases List.mem_append.mp member with old | new
    · exact sound.sent sent old
    · obtain ⟨w, held, rfl⟩ := List.mem_map.mp new
      obtain ⟨name, asked, -⟩ := sound.listed w (List.mem_of_mem_filter held)
      exact (List.getElem?_eq_some_iff.mp asked).1

theorem handleRconn_eq {failed : List Nat} (sound : Sound s) :
    handleRconn s name (message name.text) failed =
      let s := pinged s failed
      if name.text ∈ s.events then
        { s with
          asked := s.asked ++ [name]
          sent := s.sent ++ [(s.asked.length, message name.text)] }
      else
        { s with
          asked := s.asked ++ [name]
          wlist := ⟨name.text, s.asked.length⟩ :: s.wlist } := by
  simp only [handleRconn, bufString_message, reply_message, removeAll_collect sound.nodup,
    List.contains_iff_mem]
  rfl

/-- Nothing was sent yet over a connection that is new. -/
theorem replies_new (sound : Sound s) : replies s s.asked.length = [] := by
  rw [replies, List.map_eq_nil_iff, List.filter_eq_nil_iff]
  intro sent member
  simpa using Nat.ne_of_lt (sound.sent sent member)

private theorem unlisted_new (sound : Sound s) (member : w ∈ s.wlist) : w.sockfd ≠ s.asked.length := by
  obtain ⟨name, asked, -⟩ := sound.listed w member
  exact Nat.ne_of_lt (List.getElem?_eq_some_iff.mp asked).1

private theorem asked_append {more : List Name} (asked : s.asked[sockfd]? = some name) :
    (s.asked ++ more)[sockfd]? = some name := by
  rw [List.getElem?_append_left (List.getElem?_eq_some_iff.mp asked).1, asked]

/-- A client that comes when its event is set is answered at once. -/
theorem answer_sound (sound : Sound s) (set : name.text ∈ s.events) : Sound
    { s with
      asked := s.asked ++ [name]
      sent := s.sent ++ [(s.asked.length, message name.text)] } where
  standing := by
    intro sockfd name' asked
    rcases Nat.lt_trichotomy sockfd s.asked.length with old | rfl | beyond
    · rw [List.getElem?_append_left old] at asked
      have same : replies
          { s with
            asked := s.asked ++ [name]
            sent := s.sent ++ [(s.asked.length, message name.text)] } sockfd = replies s sockfd := by
        have apart : s.asked.length ≠ sockfd := Nat.ne_of_gt old
        apply replies_append.trans
        simp [apart]
      cases sound.standing sockfd name' asked with
      | waiting n listed unset told => exact .waiting n listed unset (same.trans told)
      | answered n unlisted set told => exact .answered n unlisted set (same.trans told)
      | dropped n unlisted gone told => exact .dropped n unlisted gone (same.trans told)
    · rw [List.getElem?_concat_length] at asked
      cases asked
      refine .answered 0 (fun w member => unlisted_new sound member) set ?_
      apply replies_append.trans
      simp [replies_new sound]
    · have none := List.getElem?_eq_none (l := s.asked ++ [name]) (i := sockfd) (by simp; omega)
      rw [none] at asked
      cases asked
  listed := by
    intro w member
    obtain ⟨name', asked, event⟩ := sound.listed w member
    exact ⟨name', asked_append asked, event⟩
  distinct := sound.distinct
  sent := by
    intro sent member
    rw [List.length_append]
    rcases List.mem_append.mp member with old | new
    · exact Nat.lt_succ_of_lt (sound.sent sent old)
    · rw [List.mem_singleton.mp new]
      exact Nat.lt_succ_self _

/-- A client that comes before its event is set is put on the list. -/
theorem wait_sound (sound : Sound s) (unset : name.text ∉ s.events) : Sound
    { s with
      asked := s.asked ++ [name]
      wlist := ⟨name.text, s.asked.length⟩ :: s.wlist } where
  standing := by
    intro sockfd name' asked
    rcases Nat.lt_trichotomy sockfd s.asked.length with old | rfl | beyond
    · rw [List.getElem?_append_left old] at asked
      have unlisted (before : ∀ w ∈ s.wlist, w.sockfd ≠ sockfd) :
          ∀ w ∈ (⟨name.text, s.asked.length⟩ : Wentry) :: s.wlist, w.sockfd ≠ sockfd := by
        intro w member
        rcases List.mem_cons.mp member with rfl | member
        · exact Nat.ne_of_gt old
        · exact before w member
      cases sound.standing sockfd name' asked with
      | waiting n listed unset told => exact .waiting n (List.mem_cons_of_mem _ listed) unset told
      | answered n absent set told => exact .answered n (unlisted absent) set told
      | dropped n absent gone told => exact .dropped n (unlisted absent) gone told
    · rw [List.getElem?_concat_length] at asked
      cases asked
      exact .waiting 0 List.mem_cons_self unset (replies_new sound)
    · have none := List.getElem?_eq_none (l := s.asked ++ [name]) (i := sockfd) (by simp; omega)
      rw [none] at asked
      cases asked
  listed := by
    intro w member
    rcases List.mem_cons.mp member with rfl | member
    · exact ⟨name, List.getElem?_concat_length .., rfl⟩
    · obtain ⟨name', asked, event⟩ := sound.listed w member
      exact ⟨name', asked_append asked, event⟩
  distinct := by
    refine List.nodup_cons.mpr ⟨fun member => ?_, sound.distinct⟩
    obtain ⟨w, held, same⟩ := List.mem_map.mp member
    exact unlisted_new sound held same
  sent := fun sent member => by
    rw [List.length_append]
    exact Nat.lt_succ_of_lt (sound.sent sent member)

theorem handleLconn_eq (sound : Sound s) : handleLconn s (message name.text) =
    { s with
      events := s.events.insert name.text
      sent := s.sent ++ (s.wlist.filter fun w => w.event = name.text).map
        fun w => (w.sockfd, message name.text)
      wlist := s.wlist.filter fun w => !decide (w.event = name.text) } := by
  simp only [handleLconn, bufString_message, reply_message, removeAll_collect sound.nodup]

/-- The event answers those who wait for it, and nobody else. -/
theorem handleLconn_sound (sound : Sound s) : Sound (handleLconn s (message name.text)) := by
  rw [handleLconn_eq sound]
  refine ⟨?_, ?_, ?_, ?_⟩
  · intro sockfd name' asked
    have fewer (before : ∀ w ∈ s.wlist, w.sockfd ≠ sockfd) :
        ∀ w ∈ s.wlist.filter fun w => !decide (w.event = name.text), w.sockfd ≠ sockfd :=
      fun w member => before w (List.mem_of_mem_filter member)
    have longer (before : name'.text ∈ s.events) : name'.text ∈ s.events.insert name.text :=
      List.mem_insert_of_mem before
    cases sound.standing sockfd name' asked with
    | waiting n listed unset told =>
      have sends := replies_sends (message name.text) (p := fun w => w.event = name.text)
        sound listed rfl
      by_cases same : name'.text = name.text
      · refine .answered n ?_ ?_ ?_
        · rintro w member rfl
          obtain ⟨held, other⟩ := List.mem_filter.mp member
          rw [sound.named asked held rfl, same] at other
          simp at other
        · rw [same]
          exact List.mem_insert_self
        · apply sends.trans
          rw [told, same]
          simp
      · refine .waiting n ?_ ?_ ?_
        · exact List.mem_filter.mpr ⟨listed, by simpa using same⟩
        · intro member
          rcases List.mem_insert_iff.mp member with new | old
          · exact same new
          · exact unset old
        · apply sends.trans
          rw [told]
          simp [same]
    | answered n unlisted set told =>
      exact .answered n (fewer unlisted) (longer set) ((replies_unlisted unlisted).trans told)
    | dropped n unlisted gone told =>
      exact .dropped n (fewer unlisted) gone ((replies_unlisted unlisted).trans told)
  · exact fun w member => sound.listed w (List.mem_of_mem_filter member)
  · exact sound.distinct.sublist (List.filter_sublist.map _)
  · intro sent member
    rcases List.mem_append.mp member with old | new
    · exact sound.sent sent old
    · obtain ⟨w, held, rfl⟩ := List.mem_map.mp new
      obtain ⟨name', asked, -⟩ := sound.listed w (List.mem_of_mem_filter held)
      exact (List.getElem?_eq_some_iff.mp asked).1

private theorem hangUp_sound (sound : Sound s) : Sound { s with gone := s.gone.insert sockfd } := by
  refine ⟨fun sockfd' name asked => ?_, sound.listed, sound.distinct, sound.sent⟩
  cases sound.standing sockfd' name asked with
  | waiting n listed unset told => exact .waiting n listed unset told
  | answered n unlisted set told => exact .answered n unlisted set told
  | dropped n unlisted gone told => exact .dropped n unlisted (List.mem_insert_of_mem gone) told

theorem step_sound (sound : Sound s) (taken : step s e = some t) : Sound t := by
  cases e with
  | block name failed =>
    simp only [step] at taken
    split at taken
    · rename_i dead
      cases taken
      have kept := pinged_sound sound dead
      rw [handleRconn_eq sound]
      dsimp only
      split
      · rename_i set
        exact answer_sound kept set
      · rename_i unset
        exact wait_sound kept unset
    · cases taken
  | set name =>
    cases taken
    exact handleLconn_sound sound
  | refused =>
    cases taken
    exact sound
  | hangUp sockfd =>
    simp only [step] at taken
    split at taken
    · cases taken
      exact hangUp_sound sound
    · cases taken

theorem start_sound : Sound start where
  standing := fun _ _ asked => by cases asked
  listed := fun _ member => by cases member
  distinct := .nil
  sent := fun _ member => by cases member

/-- **The server answers every client that waits, once and not too early.** No client waits for
an event that has been set. Over its connection a client gets PINGs, and behind them its own
event at most once, when that has been set; while it is there, it has been answered or it
waits. An event that is set leaves no one waiting for it, and the others wait on as before. -/
theorem clients_answered (ran : run step start es = some s) :
    (∀ w ∈ s.wlist, w.event ∉ s.events) ∧
      (∀ sockfd name, s.asked[sockfd]? = some name →
        (∃ n, replies s sockfd = List.replicate n ping ∨
          replies s sockfd = List.replicate n ping ++ [message name.text] ∧ name.text ∈ s.events) ∧
        (sockfd ∉ s.gone → message name.text ∈ replies s sockfd ∨ ⟨name.text, sockfd⟩ ∈ s.wlist)) ∧
      ∀ name t, step s (.set name) = some t → name.text ∈ t.events ∧
        (∀ w ∈ t.wlist, w.event ≠ name.text) ∧
        ∀ w ∈ s.wlist, w.event ≠ name.text →
          w ∈ t.wlist ∧ replies t w.sockfd = replies s w.sockfd := by
  have sound : Sound s := run_keeps (fun _ _ _ => step_sound) start_sound ran
  refine ⟨?_, ?_, ?_⟩
  · intro w member
    obtain ⟨name, asked, event⟩ := sound.listed w member
    rw [event]
    cases sound.standing w.sockfd name asked with
    | waiting n listed unset told => exact unset
    | answered n unlisted set told => exact absurd rfl (unlisted w member)
    | dropped n unlisted gone told => exact absurd rfl (unlisted w member)
  · intro sockfd name asked
    cases sound.standing sockfd name asked with
    | waiting n listed unset told => exact ⟨⟨n, .inl told⟩, fun _ => .inr listed⟩
    | answered n unlisted set told => exact ⟨⟨n, .inr ⟨told, set⟩⟩, fun _ => .inl (by simp [told])⟩
    | dropped n unlisted gone told => exact ⟨⟨n, .inl told⟩, fun here => absurd gone here⟩
  · intro name t taken
    cases taken
    refine ⟨?_, ?_, ?_⟩
    · rw [handleLconn_eq sound]
      exact List.mem_insert_self
    · intro w member
      rw [handleLconn_eq sound] at member
      simpa using (List.mem_filter.mp member).2
    · intro w member other
      have sends := replies_sends (message name.text) (p := fun w => w.event = name.text)
        sound member rfl
      rw [handleLconn_eq sound]
      refine ⟨List.mem_filter.mpr ⟨member, by simpa using other⟩, sends.trans ?_⟩
      simp [other]

def ready : Name := ⟨"READY".toList, by decide, by decide, by decide⟩

def finished : Name := ⟨"DONE".toList, by decide, by decide, by decide⟩

/-- Two clients wait, one of them goes away, and a third one comes when its event is set. -/
theorem clients_answered_twice : ∃ s, run step start [.block ready [], .block finished [], .hangUp 1,
    .set ready, .block ready [1]] = some s ∧
    (∀ w ∈ s.wlist, w.event ∉ s.events) ∧ message ready.text ∈ replies s 2 := by
  have runs : ((run step start [.block ready [], .block finished [], .hangUp 1, .set ready,
      .block ready [1]]).map fun s => (s.asked[2]?.map Name.text, s.gone, s.wlist)) =
      some (some ready.text, [1], []) := by decide +kernel
  obtain ⟨s, ran, seen⟩ := Option.map_eq_some_iff.mp runs
  obtain ⟨asked, gone, wlist⟩ := by simpa only [Prod.mk.injEq] using seen
  obtain ⟨name, third, same⟩ := Option.map_eq_some_iff.mp asked
  obtain ⟨unset, answered, -⟩ := clients_answered ran
  refine ⟨s, ran, unset, ?_⟩
  have told := (answered 2 name third).2 (by simp [gone])
  rw [wlist, same] at told
  exact told.resolve_right List.not_mem_nil

end Restraint.SyncServer
