import Fleet.Proofs.Bridge.Output
import Mathlib.Logic.Function.Basic

/-!
A link at work. What a process writes waits in a pipe until it is read; its exit is handled once all of that
was read and the process has exited. Meanwhile commands are given, calls are answered, and a stop is asked for,
at any time.
-/

namespace Fleet.Bridge

/-- The process of a key; before its start it has done nothing. -/
def Link.process (l : Link) (key : Nat) : Process := (l.processes[key]?).getD {}

/-- The call that a line would make now. -/
def Link.callOf? (l : Link) (line : String) : Option OpenCall :=
  (requestOf? line).map fun (id, method, params) => ⟨l.calls, id, method, params⟩

/-- A link, what its processes have written, and what has happened at them, by their keys. -/
structure Linkage where
  link : Link
  pipe : Nat → Pipe := fun _ => {}
  log : List (Nat × Linkage.Entry) := []

namespace Linkage

/-- What may happen at one process. -/
inductive Deed where
  /-- A line is written on its output. -/
  | write (line : String)
  /-- Nobody will write on its output any more. -/
  | close
  | exit (how : Exit)
  /-- The next line is read. -/
  | hear
  | answer (call : Nat) (outcome : Except Error Json)
  /-- Its exit is handled, if it may be. -/
  | settle

inductive Move where
  | start (p : StartSession)
  | message (text : String)
  | cancel
  | stop
  | deed (key : Nat) (d : Deed)

def entries (w : Linkage) (key : Nat) : List Entry :=
  w.log.filterMap fun x => if x.1 = key then some x.2 else none

/-- What becomes of one process, its pipe and its part of the log. -/
def become (w : Linkage) (key : Nat) (link : Link) (t : Pipe) (es : List Entry) : Linkage where
  link := link
  pipe := Function.update w.pipe key t
  log := w.log ++ es.map (key, ·)

def give (w : Linkage) (c : Command) : Linkage :=
  match w.link.send c with
  | .ok link => { w with link }
  | .error _ => w

/-- Lines are read in the order in which they were written. The exit of a process is handled once, after its
output was closed and read to the end. -/
def act (w : Linkage) (key : Nat) (d : Deed) : Linkage :=
  let t := w.pipe key
  match d with
  | .write line =>
    if t.closed then w else w.become key w.link { t with unread := t.unread ++ [line] } [.wrote line]
  | .close => w.become key w.link { t with closed := true } []
  | .exit how => if t.exit.isSome then w else w.become key w.link { t with exit := some how } []
  | .hear =>
    match t.unread with
    | [] => w
    | line :: rest =>
      let (link, sent) := w.link.readLine key line
      w.become key link { t with unread := rest } (reading line (w.link.callOf? line).toList sent)
  | .answer call outcome => w.become key (w.link.answer key call outcome) t [.answered call outcome]
  | .settle =>
    match t.exit with
    | none => w
    | some how =>
      if t.closed && t.unread.isEmpty && !w.link.hasExited key then
        let (link, sent) := w.link.ended key how
        w.become key link t (.ended how :: sent.map Entry.sent)
      else w

def take (w : Linkage) : Move → Linkage
  | .start p => { w with link := w.link.start p }
  | .message text => w.give (.userMessage text)
  | .cancel => w.give .cancel
  | .stop =>
    match w.link.stop with
    | (link, none) => { w with link }
    | (link, some key) => w.become key link (w.pipe key) [.stopped]
  | .deed key d => if key < w.link.processes.length then w.act key d else w

/-- A link from its making on. No process is killed. -/
def run (session : String) (moves : List Move) : Linkage := moves.foldl take { link := { session } }

end Linkage

variable {l k : Link} {key other : Nat} {line : String} {f : Process → Process}

namespace Link

theorem process_change (hkey : key < l.processes.length) :
    (l.change key f).process key = f (l.process key) := by
  simp [process, change, hkey]

theorem process_change_ne (hother : other ≠ key) : (l.change key f).process other = l.process other := by
  simp [process, change, Ne.symm hother]

theorem length_change : (l.change key f).processes.length = l.processes.length := List.length_modify ..

theorem hasExited_eq (hkey : key < l.processes.length) : l.hasExited key = (l.process key).exit.isSome := by
  simp [hasExited, process, hkey]

/-- All processes but one are as before. -/
structure Apart (l k : Link) (key : Nat) : Prop where
  length : k.processes.length = l.processes.length
  current : ∀ x ∈ k.current, x ∈ l.current
  calls : l.calls ≤ k.calls
  process : ∀ x ≠ key, k.process x = l.process x

theorem Apart.refl (l : Link) (key : Nat) : l.Apart l key := ⟨rfl, fun _ => id, Nat.le_refl _, fun _ _ => rfl⟩

theorem Apart.change (l : Link) (key : Nat) (f : Process → Process) : l.Apart (l.change key f) key :=
  ⟨length_change, fun _ => id, Nat.le_refl _, fun _ => process_change_ne⟩

/-- What a line does: the session is told the event that it stands for, and a call is open that it makes. -/
structure Passed (l : Link) (key : Nat) (line : String) (k : Link) (sent : List Sent) : Prop where
  apart : l.Apart k key
  calls : k.calls = l.calls + (l.callOf? line).toList.length
  told : (sent.map Linkage.Entry.sent).filterMap Linkage.Entry.told? = (eventOf? line).toList
  asked : (sent.map Linkage.Entry.sent).filterMap Linkage.Entry.asked? =
    (l.callOf? line).toList.map fun c => (c.method, c.params)
  process : key < l.processes.length →
    k.process key = { l.process key with calls := (l.process key).calls ++ (l.callOf? line).toList }

theorem passed_of_no_call {sent : List Sent} (hcall : requestOf? line = none)
    (htold : (sent.map Linkage.Entry.sent).filterMap Linkage.Entry.told? = (eventOf? line).toList)
    (hasked : (sent.map Linkage.Entry.sent).filterMap Linkage.Entry.asked? = []) :
    Passed l key line l sent := by
  have hnone : l.callOf? line = none := by rw [callOf?, hcall, Option.map_none]
  refine ⟨.refl l key, ?_, htold, ?_, fun _ => ?_⟩
  · rw [hnone]
    rfl
  · rw [hnone, hasked]
    rfl
  · rw [hnone]
    simp

theorem readLine_passes (l : Link) (key : Nat) (line : String) :
    Passed l key line (l.readLine key line).1 (l.readLine key line).2 := by
  cases hblank : Text.isAllBlank line with
  | true =>
    -- a blank line is passed over unread, and could not be read
    have hdecode := Message.decode_blank hblank
    have hnone : requestOf? line = none := by
      unfold requestOf?
      split
      · rename_i hcall
        rw [hcall] at hdecode
        cases hdecode
      · rfl
    rw [readLine, if_pos hblank]
    refine passed_of_no_call hnone ?_ rfl
    rw [eventOf?, hdecode]
    rfl
  | false =>
    rw [readLine, if_neg (by simp [hblank])]
    cases hdecode : Message.decode line with
    | error e =>
      refine passed_of_no_call ?_ ?_ rfl
      · rw [requestOf?, hdecode]
      · rw [eventOf?, hdecode]
        rfl
    | ok m =>
      have hevent : eventOf? line = m.event? := by
        rw [eventOf?, hdecode]
        rfl
      cases m with
      | cpRequest id method params =>
        have hcall : l.callOf? line = some ⟨l.calls, id, method, params⟩ := by
          rw [callOf?, requestOf?, hdecode]
          rfl
        refine ⟨?_, ?_, ?_, ?_, fun hkey => ?_⟩
        · exact ⟨length_change, fun _ hx => hx, Nat.le_succ _, fun _ => process_change_ne⟩
        · rw [hcall]
          rfl
        · rw [hevent]
          rfl
        · rw [hcall]
          rfl
        · rw [hcall]
          exact process_change hkey
      | _ =>
        refine passed_of_no_call ?_ ?_ rfl
        · rw [requestOf?, hdecode]
        · rw [hevent]
          rfl

theorem filter_response (id : String) (outcome : Except Error Json) :
    [response id outcome].filter Command.isResponse = [response id outcome] := by
  cases outcome <;> rfl

theorem ended_sent (how : Exit) :
    .ended how :: (l.ended key how).2.map Linkage.Entry.sent =
      Linkage.Heard.lastly (l.process key).stopping how := by
  have hstopping : (l.processes[key]?).any Process.stopping = (l.process key).stopping := by
    unfold process
    cases l.processes[key]? <;> rfl
  unfold ended Linkage.Heard.lastly
  rw [hstopping]
  cases (l.process key).stopping <;> rfl

/-- Nothing that is noted tells the two apart. -/
structure Alike (p q : Process) : Prop where
  stopping : q.stopping = p.stopping
  exit : q.exit = p.exit
  calls : q.calls = p.calls
  responses : q.commands.filter Command.isResponse = p.commands.filter Command.isResponse

theorem Alike.refl (p : Process) : Alike p p := ⟨rfl, rfl, rfl, rfl⟩

theorem start_alike (l : Link) (p : StartSession) (key : Nat) :
    Alike (l.process key) ((l.start p).process key) := by
  unfold start
  split
  · exact .refl _
  · unfold process
    rcases Nat.lt_trichotomy key l.processes.length with hkey | rfl | hkey
    · rw [List.getElem?_append_left hkey]
      exact .refl _
    · rw [List.getElem?_concat_length, List.getElem?_eq_none (Nat.le_refl _)]
      exact ⟨rfl, rfl, rfl, rfl⟩
    · have hbeyond : l.processes.length + 1 ≤ key := hkey
      rw [List.getElem?_eq_none (Nat.le_of_lt hkey), List.getElem?_eq_none (by simpa using hbeyond)]
      exact .refl _

theorem start_grows (l : Link) (p : StartSession) :
    (l.start p).calls = l.calls ∧ l.processes.length ≤ (l.start p).processes.length ∧
      ∀ key ∈ (l.start p).current, key ∈ l.current ∨ key < (l.start p).processes.length := by
  unfold start
  split
  · exact ⟨rfl, Nat.le_refl _, fun _ => .inl⟩
  · refine ⟨rfl, by simp, ?_⟩
    rintro key ⟨⟩
    exact .inr (by simp)

theorem stop_spec (hcurrent : l.current = some key) (hkey : key < l.processes.length) :
    ∃ k, l.stop = (k, some key) ∧ l.Apart k key ∧ k.calls = l.calls ∧ k.process key =
      { l.process key with stopping := true, commands := (l.process key).commands ++ [.stop] } := by
  unfold stop
  rw [hcurrent]
  refine ⟨_, rfl, ⟨length_change, nofun, Nat.le_refl _, fun _ => process_change_ne⟩, rfl, ?_⟩
  exact process_change hkey

theorem send_alike {c : Command} (hc : c.isResponse = false) (h : l.send c = .ok k) :
    k.current = l.current ∧ k.processes.length = l.processes.length ∧ k.calls = l.calls ∧
      ∀ key, Alike (l.process key) (k.process key) := by
  unfold send at h
  split at h
  · rename_i x hx
    cases h
    refine ⟨rfl, length_change, rfl, fun key => ?_⟩
    by_cases hkey : key = x
    · subst hkey
      -- a key without a process is not sent to; nothing changes then
      by_cases hthere : key < l.processes.length
      · rw [process_change hthere]
        exact ⟨rfl, rfl, rfl, by simp [List.filter_append, hc]⟩
      · simp [process, change, hthere, Alike.refl]
    · rw [process_change_ne hkey]
      exact .refl _
  · cases h

end Link

namespace Linkage

open Entry

variable {w : Linkage} {t : Pipe} {es : List Entry}

theorem entries_become : (w.become key l t es).entries key = w.entries key ++ es := by
  simp [entries, become, List.filterMap_append, List.filterMap_map]

theorem entries_become_ne (hother : other ≠ key) : (w.become key l t es).entries other = w.entries other := by
  have hkey : key ≠ other := Ne.symm hother
  simp [entries, become, List.filterMap_append, List.filterMap_map, hkey]

theorem pipe_become : (w.become key l t es).pipe key = t := Function.update_self ..

theorem pipe_become_ne (hother : other ≠ key) : (w.become key l t es).pipe other = w.pipe other :=
  Function.update_of_ne hother ..

/-- What is noted of each process agrees with the process and its output. -/
structure Kept (w : Linkage) : Prop where
  current : ∀ key ∈ w.link.current, key < w.link.processes.length
  fresh : ∀ key, w.link.processes.length ≤ key → w.pipe key = {}
  heard : ∀ key, Heard (w.link.process key).stopping (w.link.process key).exit (w.pipe key) (w.entries key)
  tallied : ∀ key, ∃ rs, Tallied (w.link.process key).calls
    ((w.link.process key).commands.filter Command.isResponse) (w.entries key) w.link.calls rs

namespace Kept

theorem start (session : String) : Kept { link := { session } } where
  current _ h := by cases h
  fresh _ _ := rfl
  heard _ := .start
  tallied _ := ⟨[], .start 0⟩

theorem becomes (h : Kept w) (hkey : key < w.link.processes.length) (hk : w.link.Apart k key)
    (hheard : Heard (k.process key).stopping (k.process key).exit t (w.entries key ++ es))
    (htallied : ∃ rs, Tallied (k.process key).calls ((k.process key).commands.filter Command.isResponse)
      (w.entries key ++ es) k.calls rs) : Kept (w.become key k t es) where
  current x hx := Nat.lt_of_lt_of_eq (h.current x (hk.current x hx)) hk.length.symm
  fresh x hx := by
    have hlength : w.link.processes.length ≤ x := hk.length ▸ hx
    exact (pipe_become_ne (Nat.ne_of_gt (Nat.lt_of_lt_of_le hkey hlength))).trans (h.fresh x hlength)
  heard x := by
    by_cases hx : x = key
    · subst hx
      rw [entries_become, pipe_become]
      exact hheard
    · rw [entries_become_ne hx, pipe_become_ne hx, become, hk.process x hx]
      exact h.heard x
  tallied x := by
    by_cases hx : x = key
    · subst hx
      rw [entries_become]
      exact htallied
    · obtain ⟨rs, hrs⟩ := h.tallied x
      rw [entries_become_ne hx, become, hk.process x hx]
      exact ⟨rs, hrs.mono hk.calls⟩

/-- The line that is next is read. -/
theorem hears (h : Kept w) (hkey : key < w.link.processes.length) {rest : List String}
    (hunread : (w.pipe key).unread = line :: rest) :
    Kept (w.become key (w.link.readLine key line).1 { w.pipe key with unread := rest }
      (reading line (w.link.callOf? line).toList (w.link.readLine key line).2)) := by
  have hheard := h.heard key
  obtain ⟨rs, htallied⟩ := h.tallied key
  have hline := w.link.readLine_passes key line
  refine h.becomes hkey hline.apart ?_ ⟨rs, ?_⟩
  · have hexit := hheard.runs (.inr (by simp [hunread]))
    rw [hline.process hkey, hexit]
    rw [hexit] at hheard
    refine hheard.goes (fair_reading ?_ hline.told hline.asked) ?_ ?_
    · rw [Link.callOf?]
      cases requestOf? line <;> rfl
    · simp [reading]
    · rw [hunread, wrote_reading, heard_reading, List.append_nil]
      rfl
  · rw [hline.process hkey, hline.calls]
    refine htallied.hears line _ fun c hc => ?_
    obtain ⟨request, -, rfl⟩ := Option.map_eq_some_iff.mp hc
    rfl

/-- The control plane answers a call, if there is one. -/
theorem answers (h : Kept w) (hkey : key < w.link.processes.length) (call : Nat) (o : Except Error Json) :
    Kept (w.become key (w.link.answer key call o) (w.pipe key) [.answered call o]) := by
  have hheard := h.heard key
  obtain ⟨rs, htallied⟩ := h.tallied key
  refine h.becomes hkey (.change _ _ _) ?_ ?_
  · rw [Link.answer, Link.process_change hkey]
    split <;> exact hheard.aside (.inr ⟨call, o, rfl⟩) (by simp)
  · rw [Link.answer, Link.process_change hkey]
    split
    · rename_i hnone
      refine ⟨rs, htallied.ignores (fun c hc => ?_) o⟩
      simpa using List.find?_eq_none.mp hnone c hc
    · rename_i c hc
      obtain rfl : c.key = call := by simpa using List.find?_some hc
      refine ⟨rs ++ [(c, o)], ?_⟩
      rw [List.filter_append, Link.filter_response]
      exact htallied.answers (List.mem_of_find?_eq_some hc) o

/-- The exit is handled. -/
theorem settles (h : Kept w) (hkey : key < w.link.processes.length) {how : Exit}
    (hunread : (w.pipe key).unread = []) (hclosed : (w.pipe key).closed = true)
    (hdied : (w.pipe key).exit = some how) (hexit : (w.link.process key).exit = none) :
    Kept (w.become key (w.link.ended key how).1 (w.pipe key)
      (.ended how :: (w.link.ended key how).2.map Entry.sent)) := by
  have hheard := h.heard key
  obtain ⟨rs, htallied⟩ := h.tallied key
  have hprocess : (w.link.ended key how).1.process key = { w.link.process key with exit := some how } :=
    Link.process_change hkey
  rw [Link.ended_sent]
  refine h.becomes hkey (.change _ _ _) ?_ ⟨rs, ?_⟩
  · rw [hprocess]
    rw [hexit] at hheard
    exact hheard.ends hunread hclosed hdied
  · rw [hprocess]
    refine htallied.passes ?_
    cases (w.link.process key).stopping <;> simp [Heard.lastly, Entry.called?]

theorem act (h : Kept w) (hkey : key < w.link.processes.length) (d : Deed) : Kept (w.act key d) := by
  have hheard := h.heard key
  obtain ⟨rs, htallied⟩ := h.tallied key
  cases d with
  | write line =>
    rw [Linkage.act]
    split
    · exact h
    · rename_i hopen
      have hexit := hheard.runs (.inl (Bool.eq_false_iff.mpr hopen))
      refine h.becomes hkey (.refl _ _) ?_ ⟨rs, htallied.passes (by simp [Entry.called?])⟩
      rw [hexit] at hheard ⊢
      exact hheard.goes ⟨rfl, rfl, rfl, by simp⟩ (by simp) rfl
  | close =>
    refine h.becomes hkey (.refl _ _) ?_ ⟨rs, ?_⟩
    · rw [List.append_nil]
      exact hheard.closes
    · rw [List.append_nil]
      exact htallied
  | exit how =>
    rw [Linkage.act]
    split
    · exact h
    · rename_i hdied
      refine h.becomes hkey (.refl _ _) ?_ ⟨rs, ?_⟩
      · rw [List.append_nil]
        exact hheard.exits (by simpa using hdied) how
      · rw [List.append_nil]
        exact htallied
  | hear =>
    rw [Linkage.act]
    split
    · exact h
    · rename_i line rest hunread
      exact h.hears hkey hunread
  | answer call outcome => exact h.answers hkey call outcome
  | settle =>
    rw [Linkage.act]
    split
    · exact h
    · rename_i how hdied
      split
      · rename_i hready
        rw [Bool.and_eq_true, Bool.and_eq_true, Link.hasExited_eq hkey] at hready
        obtain ⟨⟨hclosed, hunread⟩, hexited⟩ := hready
        have hexit : (w.link.process key).exit = none := by simpa using hexited
        exact h.settles hkey (List.isEmpty_iff.mp hunread) hclosed hdied hexit
      · exact h

theorem alike (h : Kept w) (hcurrent : ∀ key ∈ k.current, key < k.processes.length)
    (hlength : w.link.processes.length ≤ k.processes.length) (hcalls : k.calls = w.link.calls)
    (hprocess : ∀ key, Link.Alike (w.link.process key) (k.process key)) : Kept { w with link := k } where
  current := hcurrent
  fresh key hkey := h.fresh key (Nat.le_trans hlength hkey)
  heard key := by
    rw [(hprocess key).stopping, (hprocess key).exit]
    exact h.heard key
  tallied key := by
    obtain ⟨rs, hrs⟩ := h.tallied key
    refine ⟨rs, ?_⟩
    rw [(hprocess key).calls, (hprocess key).responses, hcalls]
    exact hrs

theorem starts (h : Kept w) (p : StartSession) : Kept { w with link := w.link.start p } := by
  obtain ⟨hcalls, hlength, hcurrent⟩ := w.link.start_grows p
  refine h.alike (fun key hkey => ?_) hlength hcalls (w.link.start_alike p)
  exact (hcurrent key hkey).elim (fun hold => Nat.lt_of_lt_of_le (h.current key hold) hlength) id

theorem gives (h : Kept w) {c : Command} (hc : c.isResponse = false) : Kept (w.give c) := by
  unfold give
  cases hsend : w.link.send c with
  | error e => exact h
  | ok k =>
    obtain ⟨hcurrent, hlength, hcalls, hprocess⟩ := Link.send_alike hc hsend
    refine h.alike (fun key hkey => ?_) (Nat.le_of_eq hlength.symm) hcalls hprocess
    exact Nat.lt_of_lt_of_eq (h.current key (hcurrent ▸ hkey)) hlength.symm

theorem stops (h : Kept w) : Kept (w.take .stop) := by
  cases hcurrent : w.link.current with
  | none =>
    have hstop : w.link.stop = (w.link, none) := by rw [Link.stop, hcurrent]
    rw [Linkage.take, hstop]
    exact h
  | some key =>
    have hkey := h.current key hcurrent
    obtain ⟨rs, htallied⟩ := h.tallied key
    obtain ⟨k, hstop, hapart, hcalls, hprocess⟩ := Link.stop_spec hcurrent hkey
    rw [Linkage.take, hstop]
    refine h.becomes hkey hapart ?_ ⟨rs, ?_⟩
    · rw [hprocess]
      exact (h.heard key).aside (.inl rfl) (by simp)
    · have hresponse : [Command.stop].filter Command.isResponse = [] := rfl
      rw [hprocess, hcalls, List.filter_append, hresponse, List.append_nil]
      exact htallied.passes (by simp [Entry.called?])

theorem take (h : Kept w) (mv : Move) : Kept (w.take mv) := by
  cases mv with
  | start p => exact h.starts p
  | message text => exact h.gives rfl
  | cancel => exact h.gives rfl
  | stop => exact h.stops
  | deed key d =>
    rw [Linkage.take]
    split
    · rename_i hkey
      exact h.act hkey d
    · exact h

theorem run (session : String) (moves : List Move) : Kept (run session moves) := by
  induction moves using List.reverseRecOn with
  | nil => exact start session
  | append_singleton moves mv ih =>
    rw [Linkage.run, List.foldl_append]
    exact ih.take mv

end Kept

/-! ### What comes of a process -/

/-- What a session is told of a process, and the process of its calls. -/
structure Accounted (w : Linkage) (key : Nat) : Prop where
  /-- Lines are read in order, and what is read is passed on. -/
  read : Read (w.pipe key) (w.entries key)
  running : (∀ how, .ended how ∉ w.entries key) →
    (w.entries key).filterMap told? = ((w.entries key).filterMap heard?).filterMap eventOf?
  ended : ∀ before how after, w.entries key = before ++ .ended how :: after →
    (w.pipe key).unread = [] ∧ (w.pipe key).closed = true ∧ (w.pipe key).exit = some how ∧
    (.stopped ∈ before →
      (w.entries key).filterMap told? = ((w.entries key).filterMap wrote?).filterMap eventOf?) ∧
    (.stopped ∉ before → (w.entries key).filterMap told? =
      ((w.entries key).filterMap wrote?).filterMap eventOf? ++ [unexpected how])
  numbers : (((w.entries key).filterMap called?).map OpenCall.key).Nodup
  responses : ∃ rs : List (OpenCall × Except Error Json),
    (w.link.process key).commands.filter Command.isResponse = rs.map (fun x => Link.response x.1.id x.2) ∧
    (rs.map (·.1.key)).Nodup ∧ ∀ c o, (c, o) ∈ rs ↔ Answered (w.entries key) c o

theorem Kept.accounted (h : Kept w) (key : Nat) : Accounted w key := by
  have hheard := h.heard key
  obtain ⟨rs, htallied⟩ := h.tallied key
  refine ⟨hheard.toRead, fun hlasting => ?_, fun before how after hsplit => ?_, htallied.numbers,
    rs, htallied.given, htallied.distinct, htallied.answered⟩
  · cases hexit : (w.link.process key).exit with
    | none => exact (hheard.running hexit).2
    | some how => exact absurd (hheard.handled how hexit).2.2.2 (hlasting how)
  · obtain ⟨hexit, hstopped, hunstopped⟩ := hheard.final before how after hsplit
    obtain ⟨hunread, hclosed, hdied, -⟩ := hheard.handled how hexit
    have horder := hheard.order
    rw [hunread, List.append_nil] at horder
    rw [horder]
    exact ⟨hunread, hclosed, hdied, hstopped, hunstopped⟩

/-- What is left to be done when a process is gone: the lines that are left are read, and its exit is
handled. -/
def rest (w : Linkage) (key : Nat) : List Move :=
  List.replicate (w.pipe key).unread.length (.deed key .hear) ++ [.deed key .settle]

theorem take_hear (hkey : key < w.link.processes.length) {lines : List String}
    (hunread : (w.pipe key).unread = line :: lines) :
    w.take (.deed key .hear) = w.become key (w.link.readLine key line).1 { w.pipe key with unread := lines }
      (reading line (w.link.callOf? line).toList (w.link.readLine key line).2) := by
  rw [take, if_pos hkey, act, hunread]

theorem Kept.settled (h : Kept w) (hkey : key < w.link.processes.length) {how : Exit}
    (hunread : (w.pipe key).unread = []) (hclosed : (w.pipe key).closed = true)
    (hdied : (w.pipe key).exit = some how) : .ended how ∈ (w.take (.deed key .settle)).entries key := by
  rw [Linkage.take, if_pos hkey, Linkage.act, hdied, hclosed, hunread, Link.hasExited_eq hkey]
  cases hexit : (w.link.process key).exit with
  | none =>
    have hnoted : .ended how ∈ (w.become key (w.link.ended key how).1 (w.pipe key)
        (.ended how :: (w.link.ended key how).2.map Entry.sent)).entries key := by
      rw [entries_become]
      simp
    exact hnoted
  | some how' =>
    -- it was handled before, and a process exits once
    obtain ⟨-, -, hsame, hmem⟩ := (h.heard key).handled how' hexit
    cases hdied.symm.trans hsame
    exact hmem

theorem Kept.ends (h : Kept w) {how : Exit} (hclosed : (w.pipe key).closed = true)
    (hdied : (w.pipe key).exit = some how) : .ended how ∈ ((w.rest key).foldl Linkage.take w).entries key := by
  have hkey : key < w.link.processes.length := by
    refine Nat.lt_of_not_le fun hkey => ?_
    rw [h.fresh key hkey] at hclosed
    cases hclosed
  -- by the lines that are left: each is read, and leaves the pipe closed and the exit to be handled
  unfold rest
  generalize hunread : (w.pipe key).unread = lines
  induction lines generalizing w with
  | nil => exact h.settled hkey hunread hclosed hdied
  | cons line lines ih =>
    rw [List.length_cons, List.replicate_succ, List.cons_append, List.foldl_cons]
    have hhear := take_hear hkey hunread
    have hpipe : (w.take (.deed key .hear)).pipe key = { w.pipe key with unread := lines } := by
      rw [hhear, pipe_become]
    refine ih (h.take _) ?_ ?_ ?_ ?_
    · rw [hpipe]
      exact hclosed
    · rw [hpipe]
      exact hdied
    · rw [hhear]
      exact Nat.lt_of_lt_of_eq hkey (w.link.readLine_passes key line).apart.length.symm
    · rw [hpipe]

/-- Whatever lines a process writes, whenever commands are given, calls are answered, a stop is asked for, or
the process exits: the session is told the events that its lines stand for, in the order of the lines, and
after all of them of the exit, once, unless a stop had been asked for before that was handled. The process is
given one response for each of its calls that is answered, with the call's id and the first answer, and no
other. Once it has exited and its output is closed, to read on is enough for the exit to be handled. -/
theorem session_hears_all_before_the_exit (session : String) (moves : List Move) (key : Nat) :
    let w := run session moves
    Accounted w key ∧ ∀ how, (w.pipe key).closed = true → (w.pipe key).exit = some how →
      .ended how ∈ (run session (moves ++ w.rest key)).entries key := by
  intro w
  have hkept : Kept w := .run session moves
  refine ⟨hkept.accounted key, fun how hclosed hdied => ?_⟩
  rw [run, List.foldl_append]
  exact hkept.ends hclosed hdied

/-- The exit waits for the line that is not read yet. -/
example :
    let deed (d : Deed) : Move := .deed 0 d
    let p : StartSession := { sessionId := "s" }
    let moves := [.start p, deed (.write "\x7b\"type\":\"reasoning\",\"content\":\"hm\"\x7d"),
      deed (.write " "), deed (.write "\x7b\"type\":\"cp_request\",\"id\":\"a\",\"method\":\"m\"\x7d"),
      deed (.write "\x7b\"type\":\"done\"\x7d"), deed (.exit (.code 3)), deed .close, deed .hear, deed .hear,
      deed .hear, deed .settle, deed (.answer 0 (.ok .null)), deed (.answer 0 (.ok .null)), deed .hear,
      deed .settle, .stop, deed .settle]
    let w := run "s" moves
    (w.entries 0).filterMap told? = [.thinking "hm", .done false, unexpected (.code 3)] ∧
      (w.link.process 0).commands = [.start (.ofSession p), .cpResponse "a" (some .null) none, .stop] := by
  decide +kernel

end Linkage

end Fleet.Bridge
