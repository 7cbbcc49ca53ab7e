import Fleet.Proofs.Control.Ledger
import Mathlib.Data.Finset.Card

/-!
What a search of a user's notes finds: the notes that have a word of the query, those with more of its words
first and of equal ones the later, up to the limit. Words are the runs of letters and digits of a text, in small
letters, and the notes are those that are held of what the user's machine wrote.
-/

namespace Fleet.Control

namespace Reports

/-! ### Words -/

/-- A run of letters and digits in a text that borders on no other letter or digit. -/
structure IsRun (text run : List Char) : Prop where
  alphanumeric : ∀ c ∈ run, Text.isAlphanumeric c = true
  bounded : ∃ before after, text = before ++ run ++ after ∧
    (∀ c ∈ before.getLast?, Text.isAlphanumeric c = false) ∧
    ∀ c ∈ after.head?, Text.isAlphanumeric c = false

/-- A run of more than one byte makes a word, in small letters. -/
def IsWord (text word : String) : Prop :=
  ∃ run, IsRun text.toList run ∧ 1 < (String.ofList run).utf8ByteSize ∧
    word = Text.lower (String.ofList run)

/-- The words of a text, without an order. -/
def wordsOf (text : String) : Finset String := (words text).toFinset

/-- How many words of the query a text has. -/
def shared (query text : String) : Nat := (wordsOf query ∩ wordsOf text).card

/-- What is told of a note that is found. -/
def hitFor (query : String) (n : Note) : Hit :=
  ⟨n.content, n.sessionId, shared query n.content, (wordsOf query).card⟩

variable {text run acc cs before after : List Char} {query word content : String}

/-- A run that borders on the beginning is all there is up to the first other character. -/
theorem eq_takeWhile (halpha : ∀ c ∈ run, Text.isAlphanumeric c = true)
    (hafter : ∀ c ∈ after.head?, Text.isAlphanumeric c = false) :
    (run ++ after).takeWhile Text.isAlphanumeric = run := by
  rw [List.takeWhile_append_of_pos halpha]
  cases after with
  | nil => simp
  | cons c rest => simp [hafter c rfl]

/-- What comes before a run that is not at the beginning ends with another character, so it is longer than the
letters and digits that the text begins with. -/
theorem IsRun.skip {c : Char} (hacc : ∀ c ∈ acc, Text.isAlphanumeric c = true)
    (hc : Text.isAlphanumeric c = false) :
    IsRun (acc ++ c :: cs) run ↔ run = acc ∨ IsRun cs run := by
  constructor
  · rintro ⟨halpha, before, after, htext, hbefore, hafter⟩
    cases before using List.reverseRecOn with
    | nil =>
      left
      rw [List.nil_append] at htext
      have hrun := eq_takeWhile halpha hafter
      have hwhole : (acc ++ c :: cs).takeWhile Text.isAlphanumeric = acc :=
        eq_takeWhile hacc (by simpa using hc)
      rw [← hrun, ← htext, hwhole]
    | append_singleton before last _ =>
      right
      have hlast : Text.isAlphanumeric last = false := hbefore last (by simp)
      rw [List.append_assoc, List.append_assoc, List.singleton_append] at htext
      obtain ⟨rest, rfl, hrest⟩ | ⟨rest, rfl, hrest⟩ := List.append_eq_append_iff.mp htext
      · cases rest with
        | nil =>
          obtain ⟨rfl, rfl⟩ := List.cons.inj hrest
          exact ⟨halpha, [], after, rfl, by simp, hafter⟩
        | cons d rest =>
          obtain ⟨rfl, rfl⟩ := List.cons.inj hrest
          refine ⟨halpha, rest ++ [last], after, by simp, ?_, hafter⟩
          simpa using hlast
      · cases rest with
        | nil =>
          obtain ⟨rfl, rfl⟩ := List.cons.inj hrest
          exact ⟨halpha, [], after, rfl, by simp, hafter⟩
        | cons d rest =>
          obtain ⟨rfl, -⟩ := List.cons.inj hrest
          have := hacc last (by simp)
          rw [hlast] at this
          cases this
  · rintro (rfl | ⟨halpha, before, after, rfl, hbefore, hafter⟩)
    · exact ⟨hacc, [], c :: cs, rfl, by simp, by simpa using hc⟩
    · refine ⟨halpha, acc ++ c :: before, after, by simp, ?_, hafter⟩
      cases before using List.reverseRecOn with
      | nil => simpa using hc
      | append_singleton before last _ =>
        rw [← List.cons_append, ← List.append_assoc, List.getLast?_concat]
        rwa [List.getLast?_concat] at hbefore

/-- Letters and digits alone are one run. -/
theorem isRun_self_iff (hacc : ∀ c ∈ acc, Text.isAlphanumeric c = true) : IsRun acc run ↔ run = acc := by
  constructor
  · rintro ⟨halpha, before, after, rfl, hbefore, hafter⟩
    cases before using List.reverseRecOn with
    | append_singleton before last _ =>
      have hlast := hacc last (by simp)
      rw [hbefore last (by simp)] at hlast
      cases hlast
    | nil =>
      cases after with
      | cons c rest =>
        have hc := hacc c (by simp)
        rw [hafter c rfl] at hc
        cases hc
      | nil => simp
  · rintro rfl
    exact ⟨hacc, [], [], by simp, by simp, by simp⟩

/-- The runs that are read off a text are those that there are. -/
theorem mem_runs (hacc : ∀ c ∈ acc, Text.isAlphanumeric c = true) :
    run ∈ runs acc cs ↔ IsRun (acc.reverse ++ cs) run := by
  have hreverse : ∀ c ∈ acc.reverse, Text.isAlphanumeric c = true := fun c hc => hacc c (List.mem_reverse.mp hc)
  induction cs generalizing acc with
  | nil => rw [runs, List.append_nil, List.mem_singleton, isRun_self_iff hreverse]
  | cons c cs ih =>
    unfold runs
    cases hc : Text.isAlphanumeric c with
    | true =>
      have hmore : ∀ d ∈ c :: acc, Text.isAlphanumeric d = true := by
        simpa [hc] using hacc
      have hlonger := ih hmore fun d hd => hmore d (List.mem_reverse.mp hd)
      simpa using hlonger
    | false =>
      have hrest : run ∈ runs [] cs ↔ IsRun cs run := ih (by simp) (by simp)
      rw [if_neg Bool.false_ne_true, List.mem_cons, hrest, IsRun.skip hreverse hc]

theorem mem_words : word ∈ words content ↔ IsWord content word := by
  have hruns (run : List Char) : run ∈ runs [] content.toList ↔ IsRun content.toList run := mem_runs (by simp)
  unfold words IsWord
  simp only [List.mem_eraseDups, List.mem_map, List.mem_filter, hruns, decide_eq_true_eq]
  constructor
  · rintro ⟨_, ⟨⟨run, hrun, rfl⟩, hsize⟩, rfl⟩
    exact ⟨run, hrun, hsize, rfl⟩
  · rintro ⟨run, hrun, hsize, rfl⟩
    exact ⟨_, ⟨⟨run, hrun, rfl⟩, hsize⟩, rfl⟩

theorem mem_wordsOf : word ∈ wordsOf content ↔ IsWord content word := List.mem_toFinset.trans mem_words

theorem nodup_eraseDups (xs : List String) : xs.eraseDups.Nodup := by
  match xs with
  | [] => exact List.nodup_nil
  | x :: xs =>
    have hshorter : (xs.filter fun y => !y == x).length < xs.length + 1 :=
      Nat.lt_succ_of_le (List.length_filter_le _ _)
    rw [List.eraseDups_cons, List.nodup_cons]
    exact ⟨by simp, nodup_eraseDups _⟩
termination_by xs.length

theorem nodup_words (s : String) : (words s).Nodup := nodup_eraseDups _

/-! ### Hits -/

theorem length_words (s : String) : (words s).length = (wordsOf s).card :=
  (List.toFinset_card_of_nodup (nodup_words s)).symm

theorem length_filter_words (query content : String) :
    ((words query).filter fun w => (words content).contains w).length = shared query content := by
  rw [← List.toFinset_card_of_nodup ((nodup_words query).filter _), List.toFinset_filter]
  refine congrArg Finset.card (Finset.ext fun w => ?_)
  simp [wordsOf]

/-- A note is found if it shares a word with the query. -/
theorem hit?_eq (query : String) (n : Note) : hit? (words query) n =
    if shared query n.content = 0 then none else some (hitFor query n) := by
  unfold hit?
  dsimp only
  rw [length_filter_words, length_words]
  rfl

theorem shared_ne_zero_iff : shared query content ≠ 0 ↔ ∃ w, IsWord query w ∧ IsWord content w := by
  unfold shared
  rw [Finset.card_ne_zero]
  constructor
  · rintro ⟨w, hw⟩
    exact ⟨w, mem_wordsOf.mp (Finset.mem_inter.mp hw).1, mem_wordsOf.mp (Finset.mem_inter.mp hw).2⟩
  · rintro ⟨w, hquery, hcontent⟩
    exact ⟨w, Finset.mem_inter.mpr ⟨mem_wordsOf.mpr hquery, mem_wordsOf.mpr hcontent⟩⟩

/-! ### The order of hits -/

/-- Sorting by a number, the larger first, keeps the order of equal ones. -/
theorem pairwise_mergeSort_by {α : Type} {before : α → α → Prop} (score : α → Nat) {xs : List α}
    (hordered : xs.Pairwise before) :
    (xs.mergeSort fun a b => decide (score b ≤ score a)).Pairwise fun a b =>
      score b < score a ∨ score a = score b ∧ before a b := by
  have htrans (a b c : α) (hab : decide (score b ≤ score a) = true) (hbc : decide (score c ≤ score b) = true) :
      decide (score c ≤ score a) = true := by
    simp only [decide_eq_true_eq] at *
    omega
  have htotal (a b : α) : (decide (score b ≤ score a) || decide (score a ≤ score b)) = true := by
    simp only [Bool.or_eq_true, decide_eq_true_eq]
    omega
  have hsorted := List.pairwise_mergeSort (List.zipIdxLE_trans htrans) (List.zipIdxLE_total htotal) xs.zipIdx
  have hplaces : ((xs.zipIdx.mergeSort (List.zipIdxLE fun a b => decide (score b ≤ score a))).map Prod.snd).Nodup := by
    rw [((List.mergeSort_perm _ _).map Prod.snd).nodup_iff, List.zipIdx_map_snd]
    exact List.nodup_range'
  have hapart := List.pairwise_map.mp hplaces
  rw [← List.mergeSort_zipIdx, List.pairwise_map]
  refine (hsorted.and hapart).imp_of_mem fun {x y} hx hy hxy => ?_
  obtain ⟨hle, hne⟩ := hxy
  rw [List.mem_mergeSort, List.mem_zipIdx_iff_getElem?] at hx hy
  simp only [List.zipIdxLE, decide_eq_true_eq] at hle
  split at hle
  · split at hle
    · obtain ⟨hlt, hxs⟩ := List.getElem?_eq_some_iff.mp hx
      obtain ⟨hlt', hys⟩ := List.getElem?_eq_some_iff.mp hy
      have hbefore := List.pairwise_iff_getElem.mp hordered x.2 y.2 hlt hlt' (by simp at hle; omega)
      rw [hxs, hys] at hbefore
      exact .inr ⟨by omega, hbefore⟩
    · exact .inl (by omega)
  · cases hle

/-! ### The search -/

/-- The places of the notes that are found, the latest first. -/
def foundIn (query : String) (notes : List Note) : List (Fin notes.length) :=
  (List.finRange notes.length).reverse.filter fun i => decide (shared query notes[i].content ≠ 0)

theorem mem_foundIn {notes : List Note} {i : Fin notes.length} :
    i ∈ foundIn query notes ↔ ∃ w, IsWord query w ∧ IsWord notes[i].content w := by
  unfold foundIn
  rw [List.mem_filter, List.mem_reverse, decide_eq_true_eq, shared_ne_zero_iff]
  exact and_iff_right (List.mem_finRange i)

theorem pairwise_foundIn (query : String) (notes : List Note) :
    (foundIn query notes).Pairwise fun i j => j < i := by
  refine List.Pairwise.filter _ (List.pairwise_reverse.mpr ?_)
  exact List.pairwise_lt_finRange _

theorem hits_eq (query : String) (notes : List Note) :
    notes.reverse.filterMap (hit? (words query)) =
      (foundIn query notes).map fun i => hitFor query notes[i] := by
  have hnotes : notes.reverse = (List.finRange notes.length).reverse.map (notes[·]) := by
    rw [List.map_reverse]
    congr 1
    exact (List.map_getElem_finRange notes).symm
  rw [hnotes, List.filterMap_map, foundIn, ← List.filterMap_eq_map, List.filterMap_filter]
  refine List.filterMap_congr fun i _ => ?_
  rw [Function.comp_apply, hit?_eq]
  simp only [ne_eq, decide_not, Bool.not_eq_true', decide_eq_false_iff_not, ite_not, Function.comp_apply]

/-- The places of the notes that are found in the order in which they are told: those with more words of the
query come first. -/
def ranked (query : String) (notes : List Note) : List (Fin notes.length) :=
  (foundIn query notes).mergeSort fun i j =>
    decide (shared query notes[j].content ≤ shared query notes[i].content)

theorem mem_ranked {notes : List Note} {i : Fin notes.length} :
    i ∈ ranked query notes ↔ ∃ w, IsWord query w ∧ IsWord notes[i].content w :=
  List.mem_mergeSort.trans mem_foundIn

theorem pairwise_ranked (query : String) (notes : List Note) :
    (ranked query notes).Pairwise fun i j =>
      shared query notes[j].content < shared query notes[i].content ∨
        shared query notes[i].content = shared query notes[j].content ∧ j < i := by
  unfold ranked
  exact pairwise_mergeSort_by (fun i : Fin notes.length => shared query notes[i].content)
    (pairwise_foundIn query notes)

theorem search_eq (r : Reports) (user query : String) (limit : Option Nat) :
    r.search user query limit =
      ((ranked query (r.notesOf user)).take (limit.getD 5)).map
        fun i => hitFor query (r.notesOf user)[i] := by
  unfold search ranked
  dsimp only
  rw [hits_eq, List.map_take, defaultHits]
  congr 1
  refine (List.map_mergeSort (f := fun i => hitFor query (r.notesOf user)[i]) ?_).symm
  intro i _ j _
  rfl

/-- A note that is held was written by a filing of the user's machine. -/
theorem exists_filing {n : Note} {filings : List Filing} {user : String}
    (h : n ∈ (accepted filings).filterMap (Entry.note? user)) :
    ∃ f ∈ filings, f.user = user ∧ Report.read f.method f.payload = .ok (.note n.sessionId n.content) := by
  obtain ⟨e, he, hn⟩ := List.mem_filterMap.mp h
  obtain ⟨f, hf, hlogged⟩ := List.mem_filterMap.mp he
  refine ⟨f, hf, ?_⟩
  unfold logged? at hlogged
  obtain ⟨report, hread, rfl⟩ := Option.map_eq_some_iff.mp hlogged
  cases report with
  | note session content =>
    simp only [Entry.note?] at hn
    split at hn
    · rename_i hmine
      cases hn
      refine ⟨hmine.1, ?_⟩
      cases hread' : Report.read f.method f.payload with
      | error e =>
        rw [hread'] at hread
        cases hread
      | ok report =>
        rw [hread'] at hread
        exact congrArg _ (Option.some.inj hread)
    · cases hn
  | snapshot | usage | audit | evolution => cases hn

/-- What a search finds is all of the user's notes that are held and share a word with the query: those that
have more of its words come first, of equal ones the later, and the first few of them are told, five unless
another number is asked for. Nobody else's note is among them, and a query without words finds nothing. -/
theorem search_is_exact (filings : List Filing) (user query : String) (limit : Option Nat) :
    let r := play filings {}
    let kept := r.notesOf user
    kept = ((accepted filings).filterMap (Entry.note? user)).rtake 5000 ∧
    (∃ places : List (Fin kept.length),
      r.search user query limit = (places.take (limit.getD 5)).map (fun i => hitFor query kept[i]) ∧
      (∀ i, i ∈ places ↔ ∃ w, IsWord query w ∧ IsWord kept[i].content w) ∧
      places.Pairwise fun i j => shared query kept[j].content < shared query kept[i].content ∨
        shared query kept[i].content = shared query kept[j].content ∧ j < i) ∧
    (∀ text w, w ∈ wordsOf text ↔ IsWord text w) ∧
    (∀ h ∈ r.search user query limit, ∃ f ∈ filings, f.user = user ∧
      Report.read f.method f.payload = .ok (.note h.sessionId h.content)) ∧
    ((∀ w, ¬ IsWord query w) → r.search user query limit = []) := by
  intro r kept
  have hkept : kept = ((accepted filings).filterMap (Entry.note? user)).rtake 5000 := by
    have hfollows := follows_foldl (accepted filings)
    rw [← play_eq] at hfollows
    exact hfollows.notes user
  refine ⟨hkept, ⟨ranked query kept, r.search_eq user query limit, fun i => mem_ranked,
    pairwise_ranked query kept⟩, fun _ _ => mem_wordsOf, ?_, ?_⟩
  · intro h hh
    rw [search_eq] at hh
    obtain ⟨i, -, rfl⟩ := List.mem_map.mp hh
    have hwritten : ∀ n ∈ kept, n ∈ (accepted filings).filterMap (Entry.note? user) := by
      rw [hkept]
      exact fun n hn => List.mem_of_mem_drop hn
    exact exists_filing (hwritten _ (List.getElem_mem i.isLt))
  · intro hnone
    have hranked : ranked query kept = [] := by
      refine List.eq_nil_iff_forall_not_mem.mpr fun i hi => ?_
      obtain ⟨w, hw, -⟩ := mem_ranked.mp hi
      exact hnone w hw
    rw [search_eq, hranked, List.take_nil, List.map_nil]

example :
    let r : Reports := { notes := [("u", [⟨none, "Tea"⟩, ⟨none, "a green tea"⟩, ⟨none, "rain"⟩, ⟨none, "tea?"⟩])] }
    (r.search "u" "green TEA a" none).map Hit.content = ["a green tea", "tea?", "Tea"] := by cbv

end Reports

end Fleet.Control
