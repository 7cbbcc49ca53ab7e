import Fleet.Bridge.Link
import Fleet.Proofs.Logs
import Mathlib.Data.List.Induction
import Mathlib.Data.List.Nodup

/-!
What happens at a bridge process, as a log. What the session is told is what the lines that were read stand
for, and at last the exit; what the process is given back are the first answers to its calls.
-/

namespace Fleet

/-! ### Blank lines -/

namespace Json

variable {c : Char} {text : String}

theorem begin_blank (h : Text.isBlank c = true) :
    begin c = ([], .between) ∨ begin c = ([.fault], .stuck) := by
  have hdigit : digit? c = none := by
    refine if_neg fun hdigit => ?_
    have hlow : 48 ≤ c.toNat := hdigit.1
    have hhigh : c.toNat ≤ 57 := hdigit.2
    simp only [Text.isBlank, Text.blankRanges, Text.inRanges] at h
    grind
  unfold begin
  split
  · exact .inl rfl
  · split
    case h_12 =>
      rw [hdigit]
      exact .inr rfl
    all_goals exact absurd h (by decide)

namespace Document

/-- Nothing but blanks was met, or a blank that may not stand in a document. -/
def Idle (state : Mode × Build) : Prop :=
  state = (.between, .within [] .value) ∨ state = (.stuck, .done .fault false)

theorem feed_blank {state : Mode × Build} (hs : Idle state) (h : Text.isBlank c = true) :
    Idle (feed state (some c)) := by
  obtain rfl | rfl := hs
  · rcases begin_blank h with hbegin | hbegin
    · refine .inl ?_
      simp [feed, Mode.step, hbegin]
    · refine .inr ?_
      simp [feed, Mode.step, hbegin, Build.step, Build.break]
  · exact .inr rfl

theorem idle_foldl {cs : List Char} {state : Mode × Build} (hs : Idle state)
    (h : ∀ c ∈ cs, Text.isBlank c = true) : Idle ((cs.map some).foldl feed state) := by
  induction cs generalizing state with
  | nil => exact hs
  | cons c cs ih =>
    obtain ⟨hc, hcs⟩ := List.forall_mem_cons.mp h
    exact ih (feed_blank hs hc) hcs

end Document

/-- A blank text is no value. -/
theorem ofText?_blank (h : Text.isAllBlank text = true) : ofText? text = none := by
  have hidle := Document.idle_foldl (.inl rfl) (List.all_eq_true.mp h)
  have hfault : Document.ofText text = (.fault, false) := by
    unfold Document.ofText Document.ofCharacters
    obtain hstate | hstate := hidle <;> rw [hstate] <;> rfl
  rw [ofText?, hfault]
  rfl

end Json

namespace Bridge

theorem Message.decode_blank {line : String} (h : Text.isAllBlank line = true) :
    (Message.decode line).toOption = none := by
  rw [Message.decode, Bridge.decode, Json.ofText?_blank h]
  rfl

/-- The event that a line stands for. -/
def eventOf? (line : String) : Option Event := (Message.decode line).toOption.bind Message.event?

/-- What a line asks of the control plane: the id, the method and the parameters. -/
def requestOf? (line : String) : Option (String × String × Json) :=
  match Message.decode line with
  | .ok (.cpRequest id method params) => some (id, method, params)
  | _ => none

def OpenCall.request (c : OpenCall) : String × String × Json := (c.id, c.method, c.params)

def Command.isResponse : Command → Bool
  | .cpResponse .. => true
  | _ => false

/-- What a session is told of an exit that nobody asked for. -/
def unexpected (exit : Exit) : Event :=
  .error ⟨Code.bridgeExited, "OpenClaw bridge exited unexpectedly (" ++ exit.describe ++ ")"⟩

/-- What was written and is not read, whether nobody can write any more, and how the process exited. -/
structure Pipe where
  unread : List String := []
  closed : Bool := false
  exit : Option Exit := none

namespace Linkage

/-- What happens at a process. -/
inductive Entry where
  | wrote (line : String)
  | heard (line : String)
  | called (call : OpenCall)
  | sent (s : Sent)
  /-- The control plane has answered a call. -/
  | answered (call : Nat) (outcome : Except Error Json)
  /-- A stop is asked for. -/
  | stopped
  /-- The exit is handled. -/
  | ended (exit : Exit)

namespace Entry

def wrote? : Entry → Option String
  | wrote line => some line
  | _ => none

def heard? : Entry → Option String
  | heard line => some line
  | _ => none

def called? : Entry → Option OpenCall
  | called c => some c
  | _ => none

/-- What the session is told. -/
def told? : Entry → Option Event
  | sent (.event e) => some e
  | _ => none

/-- What the control plane is asked. -/
def asked? : Entry → Option (String × Json)
  | sent (.call method params) => some (method, params)
  | _ => none

end Entry

open Entry

variable {es more : List Entry} {e : Entry} {t u : Pipe} {line : String} {exit : Option Exit} {stopping : Bool}
  {c : OpenCall} {o : Except Error Json}

/-! ### The output -/

/-- The output of a process is read in order, and its calls are passed on. -/
structure Read (t : Pipe) (es : List Entry) : Prop where
  order : es.filterMap wrote? = es.filterMap heard? ++ t.unread
  requests : (es.filterMap called?).map OpenCall.request = (es.filterMap heard?).filterMap requestOf?
  asked : es.filterMap asked? = (es.filterMap called?).map fun c => (c.method, c.params)

/-- The session is told what the lines stand for. Once the exit is handled, all of the output was read, and the
session was told of the exit last, unless a stop had been asked for. -/
structure Heard (stopping : Bool) (exit : Option Exit) (t : Pipe) (es : List Entry) : Prop
    extends Read t es where
  stopped : stopping = true ↔ .stopped ∈ es
  running : exit = none → (∀ how, .ended how ∉ es) ∧
    es.filterMap told? = (es.filterMap heard?).filterMap eventOf?
  handled : ∀ how, exit = some how →
    t.unread = [] ∧ t.closed = true ∧ t.exit = some how ∧ .ended how ∈ es
  final : ∀ before how after, es = before ++ .ended how :: after → exit = some how ∧
    (.stopped ∈ before → es.filterMap told? = (es.filterMap heard?).filterMap eventOf?) ∧
    (.stopped ∉ before →
      es.filterMap told? = (es.filterMap heard?).filterMap eventOf? ++ [unexpected how])

/-- Nothing of what is noted is of the output. -/
structure Quiet (more : List Entry) : Prop where
  wrote : more.filterMap wrote? = []
  heard : more.filterMap heard? = []
  called : more.filterMap called? = []
  asked : more.filterMap asked? = []

/-- What is noted while a process runs: nothing of its exit, and of a line that is read what it stands for. -/
structure Fair (more : List Entry) : Prop where
  requests : (more.filterMap called?).map OpenCall.request = (more.filterMap heard?).filterMap requestOf?
  asked : more.filterMap asked? = (more.filterMap called?).map fun c => (c.method, c.params)
  told : more.filterMap told? = (more.filterMap heard?).filterMap eventOf?
  lasting : ∀ how, .ended how ∉ more

/-- What is noted when a line is read. -/
def reading (line : String) (calls : List OpenCall) (sent : List Sent) : List Entry :=
  .heard line :: (calls.map Entry.called ++ sent.map Entry.sent)

section Reading

variable (line : String) (calls : List OpenCall) (sent : List Sent)

theorem filterMap_reading {α : Type} (f : Entry → Option α) : (reading line calls sent).filterMap f =
    (f (.heard line)).toList ++ (calls.filterMap (f ∘ Entry.called) ++ sent.filterMap (f ∘ Entry.sent)) := by
  rw [reading, List.filterMap_cons, List.filterMap_append, List.filterMap_map, List.filterMap_map]
  cases f (.heard line) <;> rfl

theorem wrote_reading : (reading line calls sent).filterMap wrote? = [] := by
  simp [filterMap_reading, wrote?]

theorem heard_reading : (reading line calls sent).filterMap heard? = [line] := by
  simp [filterMap_reading, heard?]

theorem called_reading : (reading line calls sent).filterMap called? = calls := by
  have hcalled : calls.filterMap (called? ∘ Entry.called) = calls := List.filterMap_some
  simp [filterMap_reading, hcalled, called?]

theorem asked_reading :
    (reading line calls sent).filterMap asked? = (sent.map Entry.sent).filterMap asked? := by
  simp [filterMap_reading, List.filterMap_map, asked?]

theorem told_reading :
    (reading line calls sent).filterMap told? = (sent.map Entry.sent).filterMap told? := by
  simp [filterMap_reading, List.filterMap_map, told?]

end Reading

theorem fair_reading {calls : List OpenCall} {sent : List Sent}
    (hcalls : calls.map OpenCall.request = (requestOf? line).toList)
    (htold : (sent.map Entry.sent).filterMap told? = (eventOf? line).toList)
    (hasked : (sent.map Entry.sent).filterMap asked? = calls.map fun c => (c.method, c.params)) :
    Fair (reading line calls sent) where
  requests := by
    rw [called_reading, heard_reading, hcalls]
    cases h : requestOf? line <;> simp [h]
  asked := by rw [asked_reading, called_reading, hasked]
  told := by
    rw [told_reading, heard_reading, htold]
    cases h : eventOf? line <;> simp [h]
  lasting how := by simp [reading]

theorem Read.quiet (h : Read t es) (hmore : Quiet more) : Read t (es ++ more) where
  order := by simp only [List.filterMap_append, hmore.wrote, hmore.heard, List.append_nil, h.order]
  requests := by simp only [List.filterMap_append, hmore.called, hmore.heard, List.append_nil, h.requests]
  asked := by simp only [List.filterMap_append, hmore.called, hmore.asked, List.append_nil, h.asked]

theorem Read.fair (h : Read t es) (hmore : Fair more)
    (horder : t.unread ++ more.filterMap wrote? = more.filterMap heard? ++ u.unread) :
    Read u (es ++ more) where
  order := by
    rw [List.filterMap_append, List.filterMap_append, h.order, List.append_assoc, horder, List.append_assoc]
  requests := by simp only [List.filterMap_append, List.map_append, h.requests, hmore.requests]
  asked := by simp only [List.filterMap_append, List.map_append, h.asked, hmore.asked]

namespace Heard

theorem start : Heard false none {} [] where
  order := rfl
  requests := rfl
  asked := rfl
  stopped := by simp
  running _ := ⟨by simp, rfl⟩
  handled _ h := by cases h
  final before how after h := by simp at h

/-- A process that runs goes on. -/
theorem goes {stopping' : Bool} (h : Heard stopping none t es) (hmore : Fair more)
    (hstopped : stopping' = true ↔ stopping = true ∨ .stopped ∈ more)
    (horder : t.unread ++ more.filterMap wrote? = more.filterMap heard? ++ u.unread) :
    Heard stopping' none u (es ++ more) := by
  obtain ⟨hlasting, htold⟩ := h.running rfl
  have hnone (how : Exit) : .ended how ∉ es ++ more := fun hmem =>
    (List.mem_append.mp hmem).elim (hlasting how) (hmore.lasting how)
  refine ⟨h.toRead.fair hmore horder, ?_, fun _ => ⟨hnone, ?_⟩, nofun, fun before how after hes => ?_⟩
  · rw [hstopped, h.stopped, List.mem_append]
  · simp only [List.filterMap_append, htold, hmore.told]
  · exact absurd (by simp [hes]) (hnone how)

/-- Answers and stops are nothing of the output, before the exit or after it. -/
theorem aside {stopping' : Bool} (h : Heard stopping exit t es)
    (he : e = .stopped ∨ ∃ call o, e = .answered call o)
    (hstopped : stopping' = true ↔ stopping = true ∨ .stopped = e) :
    Heard stopping' exit t (es ++ [e]) := by
  have hquiet : Quiet [e] ∧ [e].filterMap told? = [] ∧ ∀ how, e ≠ .ended how := by
    obtain rfl | ⟨call, o, rfl⟩ := he <;> exact ⟨⟨rfl, rfl, rfl, rfl⟩, rfl, nofun⟩
  obtain ⟨hquiet, htold, hended⟩ := hquiet
  refine ⟨h.toRead.quiet hquiet, ?_, fun hexit => ?_, fun how hexit => ?_, fun before how after hes => ?_⟩
  · rw [hstopped, h.stopped, List.mem_append, List.mem_singleton]
  · obtain ⟨hlasting, hevents⟩ := h.running hexit
    refine ⟨fun how hmem => ?_, ?_⟩
    · rcases List.mem_append.mp hmem with hmem | hmem
      · exact hlasting how hmem
      · exact hended how (List.mem_singleton.mp hmem).symm
    · simp only [List.filterMap_append, htold, hquiet.heard, List.append_nil, hevents]
  · obtain ⟨hunread, hclosed, hdied, hmem⟩ := h.handled how hexit
    exact ⟨hunread, hclosed, hdied, List.mem_append_left _ hmem⟩
  · simp only [List.filterMap_append, htold, hquiet.heard, List.append_nil]
    obtain ⟨rest, hrest, -⟩ | ⟨-, he, -⟩ := concat_split hes
    · exact h.final before how rest hrest
    · exact absurd he.symm (hended how)

/-- As long as there is something to read, or may be, the exit is not handled. -/
theorem runs (h : Heard stopping exit t es) (hopen : t.closed = false ∨ t.unread ≠ []) : exit = none := by
  cases exit with
  | none => rfl
  | some how =>
    obtain ⟨hunread, hclosed, -, -⟩ := h.handled how rfl
    rcases hopen with hopen | hopen
    · cases hclosed.symm.trans hopen
    · exact absurd hunread hopen

theorem closes (h : Heard stopping exit t es) : Heard stopping exit { t with closed := true } es :=
  { h with
    order := h.order
    handled := fun how hexit =>
      have ⟨hunread, _, hdied, hmem⟩ := h.handled how hexit
      ⟨hunread, rfl, hdied, hmem⟩ }

theorem exits (h : Heard stopping exit t es) (hexit : t.exit = none) (how : Exit) :
    Heard stopping exit { t with exit := some how } es :=
  { h with
    order := h.order
    handled := fun how' hhow => by
      cases hexit.symm.trans (h.handled how' hhow).2.2.1 }

/-- What is noted when an exit is handled. -/
def lastly (stopping : Bool) (how : Exit) : List Entry :=
  .ended how :: if stopping then [] else [.sent (.event (unexpected how))]

theorem quiet_lastly (stopping : Bool) (how : Exit) : Quiet (lastly stopping how) := by
  cases stopping <;> exact ⟨rfl, rfl, rfl, rfl⟩

/-- The exit is handled. -/
theorem ends {how : Exit} (h : Heard stopping none t es) (hunread : t.unread = []) (hclosed : t.closed = true)
    (hexit : t.exit = some how) : Heard stopping (some how) t (es ++ lastly stopping how) := by
  obtain ⟨hlasting, htold⟩ := h.running rfl
  have hquiet := quiet_lastly stopping how
  refine ⟨h.toRead.quiet hquiet, ?_, nofun, fun how' hhow => ?_, fun before how' after hes => ?_⟩
  · rw [List.mem_append, ← h.stopped]
    cases stopping <;> simp [lastly]
  · cases hhow
    exact ⟨hunread, hclosed, hexit, by simp [lastly]⟩
  · obtain ⟨rest, hrest, -⟩ | ⟨front, rfl, hfront⟩ := append_split hes
    · exact absurd (by simp [hrest]) (hlasting how')
    · -- the exit is the first of what is new, so that all that was noted till now stands before it
      obtain rfl : front = [] := by
        cases front with
        | nil => rfl
        | cons y front =>
          have hmem : Entry.ended how' ∈ if stopping then [] else [.sent (.event (unexpected how))] := by
            rw [(List.cons.inj hfront).2]
            simp
          cases stopping <;> simp at hmem
      obtain ⟨rfl, -⟩ := Entry.ended.inj (List.cons.inj hfront).1
      rw [List.append_nil, ← h.stopped, List.filterMap_append, List.filterMap_append, htold, hquiet.heard,
        List.append_nil]
      cases stopping
      · exact ⟨rfl, nofun, fun _ => rfl⟩
      · exact ⟨rfl, fun _ => List.append_nil _, fun hno => absurd rfl hno⟩

end Heard

/-! ### The calls -/

/-- The call was made and is not answered. -/
def Pending (es : List Entry) (c : OpenCall) : Prop :=
  ∃ before after, es = before ++ .called c :: after ∧ ∀ o, .answered c.key o ∉ after

/-- This is the first answer to the call since it was made. -/
def Answered (es : List Entry) (c : OpenCall) (o : Except Error Json) : Prop :=
  ∃ before between after, es = before ++ .called c :: (between ++ .answered c.key o :: after) ∧
    ∀ o', .answered c.key o' ∉ between

/-- Each call has a number of its own, and the process was given one response for each call that was
answered. -/
structure Tallied (calls : List OpenCall) (responses : List Command) (es : List Entry) (count : Nat)
    (rs : List (OpenCall × Except Error Json)) : Prop where
  numbers : ((es.filterMap called?).map OpenCall.key).Nodup
  below : ∀ c, .called c ∈ es → c.key < count
  pending : ∀ c, c ∈ calls ↔ Pending es c
  answered : ∀ c o, (c, o) ∈ rs ↔ Answered es c o
  apart : ∀ c ∈ calls, c.key ∉ rs.map (·.1.key)
  distinct : (rs.map (·.1.key)).Nodup
  given : responses = rs.map fun x => Link.response x.1.id x.2

theorem mem_called? : c ∈ es.filterMap called? ↔ .called c ∈ es := by
  rw [List.mem_filterMap]
  constructor
  · rintro ⟨e, he, hc⟩
    cases e with
    | called d =>
      cases hc
      exact he
    | _ => cases hc
  · exact fun h => ⟨_, h, rfl⟩

theorem called_answered (n : Nat) :
    (es ++ [Entry.answered n o]).filterMap called? = es.filterMap called? := by
  rw [List.filterMap_append]
  exact List.append_nil _

theorem Pending.called (h : Pending es c) : .called c ∈ es := by
  obtain ⟨before, after, rfl, -⟩ := h
  simp

theorem Answered.called (h : Answered es c o) : .called c ∈ es := by
  obtain ⟨before, between, after, rfl, -⟩ := h
  simp

theorem pending_concat :
    Pending (es ++ [e]) c ↔ e = .called c ∨ Pending es c ∧ ∀ o, e ≠ .answered c.key o := by
  constructor
  · rintro ⟨before, after, hes, hsilent⟩
    obtain ⟨rest, rfl, rfl⟩ | ⟨-, he, -⟩ := concat_split hes
    · refine .inr ⟨⟨before, rest, rfl, fun o hmem => hsilent o (List.mem_append_left _ hmem)⟩, ?_⟩
      rintro o rfl
      exact hsilent o (by simp)
    · exact .inl he.symm
  · rintro (rfl | ⟨⟨before, after, rfl, hsilent⟩, he⟩)
    · exact ⟨es, [], rfl, by simp⟩
    · refine ⟨before, after ++ [e], by simp, fun o hmem => ?_⟩
      rcases List.mem_append.mp hmem with hmem | hmem
      · exact hsilent o hmem
      · exact he o (List.mem_singleton.mp hmem).symm

theorem answered_concat :
    Answered (es ++ [e]) c o ↔ Answered es c o ∨ Pending es c ∧ e = .answered c.key o := by
  constructor
  · rintro ⟨before, between, after, hes, hsilent⟩
    rw [← List.cons_append, ← List.append_assoc] at hes
    obtain ⟨rest, hrest, -⟩ | ⟨rfl, rfl, -⟩ := concat_split hes
    · exact .inl ⟨before, between, rest, by simpa using hrest, hsilent⟩
    · exact .inr ⟨⟨before, between, rfl, hsilent⟩, rfl⟩
  · rintro (⟨before, between, after, rfl, hsilent⟩ | ⟨⟨before, between, rfl, hsilent⟩, rfl⟩)
    · exact ⟨before, between, after ++ [e], by simp, hsilent⟩
    · exact ⟨before, between, [], by simp, hsilent⟩

namespace Tallied

variable {calls : List OpenCall} {responses : List Command} {count count' : Nat}
  {rs : List (OpenCall × Except Error Json)}

theorem start (count : Nat) : Tallied [] [] [] count [] where
  numbers := List.nodup_nil
  below := by simp
  pending c := by simp [Pending]
  answered c o := by simp [Answered]
  apart := by simp
  distinct := List.nodup_nil
  given := rfl

theorem mono (h : Tallied calls responses es count rs) (hcount : count ≤ count') :
    Tallied calls responses es count' rs :=
  { h with below := fun c hc => Nat.lt_of_lt_of_le (h.below c hc) hcount }

/-- What is neither a call nor an answer changes nothing. -/
theorem passes (h : Tallied calls responses es count rs)
    (hmore : ∀ e ∈ more, e.called? = none ∧ ∀ call o, e ≠ .answered call o) :
    Tallied calls responses (es ++ more) count rs := by
  induction more using List.reverseRecOn with
  | nil => simpa using h
  | append_singleton more e ih =>
    obtain ⟨hmore, he⟩ := List.forall_mem_append.mp hmore
    obtain ⟨hcalled, hanswered⟩ := he e (List.mem_singleton_self e)
    have hno (c : OpenCall) : e ≠ .called c := by
      rintro rfl
      cases hcalled
    have h := ih hmore
    rw [← List.append_assoc]
    refine ⟨?_, fun c hc => ?_, fun c => ?_, fun c o => ?_, h.apart, h.distinct, h.given⟩
    · simpa [List.filterMap_append, hcalled] using h.numbers
    · rcases List.mem_append.mp hc with hc | hc
      · exact h.below c hc
      · exact absurd (List.mem_singleton.mp hc).symm (hno c)
    · rw [h.pending, pending_concat]
      exact ⟨fun hc => .inr ⟨hc, fun o => hanswered _ o⟩, fun hc => (hc.resolve_left (hno c)).1⟩
    · rw [h.answered, answered_concat]
      exact ⟨.inl, fun hc => hc.resolve_right fun hlast => hanswered _ _ hlast.2⟩

theorem calls_of_key (h : Tallied calls responses es count rs) {d : OpenCall} (hc : .called c ∈ es)
    (hd : .called d ∈ es) (hkey : d.key = c.key) : d = c :=
  List.inj_on_of_nodup_map h.numbers (mem_called?.mpr hd) (mem_called?.mpr hc) hkey

/-- A call is made. -/
theorem asks (h : Tallied calls responses es count rs) (id method : String) (params : Json) :
    Tallied (calls ++ [⟨count, id, method, params⟩]) responses (es ++ [.called ⟨count, id, method, params⟩])
      (count + 1) rs := by
  have hfresh {d : OpenCall} (hd : .called d ∈ es) : d.key ≠ count := Nat.ne_of_lt (h.below d hd)
  refine ⟨?_, fun c hc => ?_, fun c => ?_, fun c o => ?_, fun c hc => ?_, h.distinct, h.given⟩
  · rw [List.filterMap_append, List.map_append]
    refine h.numbers.append (List.nodup_singleton count) fun k hk hcount => ?_
    obtain ⟨d, hd, rfl⟩ := List.mem_map.mp hk
    exact hfresh (mem_called?.mp hd) (List.mem_singleton.mp hcount)
  · rcases List.mem_append.mp hc with hc | hc
    · exact Nat.lt_succ_of_lt (h.below c hc)
    · cases List.mem_singleton.mp hc
      exact Nat.lt_succ_self count
  · rw [List.mem_append, List.mem_singleton, h.pending, pending_concat]
    constructor
    · rintro (hc | rfl)
      · exact .inr ⟨hc, nofun⟩
      · exact .inl rfl
    · rintro (hc | ⟨hc, -⟩)
      · exact .inr (Entry.called.inj hc).symm
      · exact .inl hc
  · rw [h.answered, answered_concat]
    exact ⟨.inl, fun hc => hc.resolve_right fun hlast => by cases hlast.2⟩
  · intro hmem
    rcases List.mem_append.mp hc with hc | hc
    · exact h.apart c hc hmem
    · obtain ⟨⟨d, o⟩, hd, hkey⟩ := List.mem_map.mp hmem
      cases List.mem_singleton.mp hc
      exact hfresh ((h.answered d o).mp hd).called hkey

/-- An answer to a call that is pending is handed to the process. -/
theorem answers (h : Tallied calls responses es count rs) (hc : c ∈ calls) (o : Except Error Json) :
    Tallied (calls.filter fun d => d.key != c.key) (responses ++ [Link.response c.id o])
      (es ++ [.answered c.key o]) count (rs ++ [(c, o)]) := by
  have hpending := (h.pending c).mp hc
  refine ⟨?_, fun d hd => ?_, fun d => ?_, fun d o' => ?_, fun d hd hmem => ?_, ?_, ?_⟩
  · rw [called_answered]
    exact h.numbers
  · exact h.below d (by simpa using hd)
  · rw [List.mem_filter, h.pending, pending_concat, bne_iff_ne]
    constructor
    · rintro ⟨hd, hkey⟩
      refine .inr ⟨hd, fun o' he => hkey ?_⟩
      exact (Entry.answered.inj he).1.symm
    · rintro (hd | ⟨hd, hother⟩)
      · cases hd
      · exact ⟨hd, fun hkey => hother o (by rw [hkey])⟩
  · rw [List.mem_append, List.mem_singleton, h.answered, answered_concat]
    refine or_congr_right ⟨?_, ?_⟩
    · rintro ⟨⟩
      exact ⟨hpending, rfl⟩
    · -- an answer names its call by number only, and no other call has that number
      rintro ⟨hd, he⟩
      obtain ⟨hkey, rfl⟩ := Entry.answered.inj he
      rw [h.calls_of_key hpending.called hd.called hkey.symm]
  · obtain ⟨hd, hkey⟩ := List.mem_filter.mp hd
    rw [List.map_append] at hmem
    rcases List.mem_append.mp hmem with hmem | hmem
    · exact h.apart d hd hmem
    · exact bne_iff_ne.mp hkey (List.mem_singleton.mp hmem)
  · rw [List.map_append]
    refine h.distinct.append (List.nodup_singleton _) fun k hk hlast => h.apart c hc ?_
    obtain rfl : k = c.key := List.mem_singleton.mp hlast
    exact hk
  · rw [h.given, List.map_append]
    rfl

/-- An answer to a call that is not pending is lost. -/
theorem ignores (h : Tallied calls responses es count rs) {call : Nat} (hcall : ∀ c ∈ calls, c.key ≠ call)
    (o : Except Error Json) : Tallied calls responses (es ++ [.answered call o]) count rs := by
  refine ⟨?_, fun d hd => ?_, fun d => ?_, fun d o' => ?_, h.apart, h.distinct, h.given⟩
  · rw [called_answered]
    exact h.numbers
  · exact h.below d (by simpa using hd)
  · rw [h.pending, pending_concat]
    constructor
    · refine fun hd => .inr ⟨hd, fun o' he => hcall d ((h.pending d).mpr hd) ?_⟩
      exact (Entry.answered.inj he).1.symm
    · rintro (hd | ⟨hd, -⟩)
      · cases hd
      · exact hd
  · rw [h.answered, answered_concat]
    refine ⟨.inl, fun hd => hd.resolve_right fun ⟨hd, he⟩ => hcall d ((h.pending d).mpr hd) ?_⟩
    exact (Entry.answered.inj he).1.symm

/-- A line is read, and makes a call or not. -/
theorem hears (h : Tallied calls responses es count rs) (line : String) (sent : List Sent)
    {made : Option OpenCall} (hmade : ∀ c ∈ made, c.key = count) :
    Tallied (calls ++ made.toList) responses (es ++ reading line made.toList sent)
      (count + made.toList.length) rs := by
  have hsent : ∀ e ∈ sent.map Entry.sent, e.called? = none ∧ ∀ call o, e ≠ .answered call o := by
    intro e he
    obtain ⟨s, -, rfl⟩ := List.mem_map.mp he
    exact ⟨rfl, nofun⟩
  have hheard : Tallied calls responses (es ++ [.heard line]) count rs :=
    h.passes (by simp [called?])
  rw [reading, List.append_cons, ← List.append_assoc]
  refine passes ?_ hsent
  cases made with
  | none =>
    rw [Option.toList_none, List.append_nil, List.map_nil, List.append_nil]
    exact hheard
  | some c =>
    obtain ⟨number, id, method, params⟩ := c
    obtain rfl : number = count := hmade _ rfl
    exact hheard.asks id method params

end Tallied

end Linkage

end Bridge

end Fleet
