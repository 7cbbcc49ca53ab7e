import Fleet.Json.Document
import Fleet.Json.Printer
import Mathlib.Data.Char

/-!
What the reader makes of printed characters. A text is over with its closing quote; a number and a
word are over once something else comes, so of these it is said what the next character finds.
-/

namespace Fleet.Json

namespace Document

/-- Characters, one after the other. -/
def run (cs : List Char) (s : Mode × Build) : Mode × Build :=
  cs.foldl (fun s c => feed s (some c)) s

variable {s : Mode × Build} {b : Build} {d : Document} {cs ds : List Char} {c : Char}

@[simp] theorem run_nil (s : Mode × Build) : run [] s = s := rfl

@[simp] theorem run_cons (c : Char) (cs : List Char) (s : Mode × Build) :
    run (c :: cs) s = run cs (feed s (some c)) := rfl

theorem run_append (cs ds : List Char) (s : Mode × Build) :
    run (cs ++ ds) s = run ds (run cs s) := List.foldl_append

theorem ofCharacters_run (cs : List Char) : ofCharacters (cs.map some) =
    (let s := run cs (.between, .within [] .value); (s.1.finish.foldl Build.step s.2).finish) := by
  unfold ofCharacters run
  rw [List.foldl_map]

/-- Whatever may come after a value finds that it was handed over. -/
structure Hands (s : Mode × Build) (b : Build) : Prop where
  finish : s.1.finish.foldl Build.step s.2 = b
  next : ∀ c ∈ [',', ']', '}'], feed s (some c) = feed (.between, b) (some c)

theorem Hands.between (b : Build) : Hands (.between, b) b := ⟨rfl, fun _ _ => rfl⟩

theorem hands_word (b : Build) (d : Document) : Hands (.word [] d, b) (b.step (.leaf d)) := by
  refine ⟨rfl, fun c hc => ?_⟩
  simp only [List.mem_cons, List.not_mem_nil, or_false] at hc
  rcases hc with rfl | rfl | rfl <;> rfl

/-! ### Texts -/

theorem hexValue_hexDigit : ∀ d < 16, hexValue? (hexDigit d) = some d := by decide

theorem run_escape (c : Char) (read : List Char) (b : Build) :
    run (escape c) (.quoted { read := read }, b) = (.quoted { read := c :: read }, b) := by
  unfold escape
  split
  · subst_vars
    rfl
  split
  · subst_vars
    rfl
  split
  · subst_vars
    rfl
  split
  · subst_vars
    rfl
  split
  · subst_vars
    rfl
  split
  · subst_vars
    rfl
  split
  · subst_vars
    rfl
  split
  · rename_i hlow
    have hhigh := hexValue_hexDigit (c.toNat / 16) (by omega)
    have hrest := hexValue_hexDigit (c.toNat % 16) (by omega)
    have hzero : hexValue? '0' = some 0 := rfl
    have hvalue : c.toNat / 16 * 16 + c.toNat % 16 = c.toNat := by omega
    have hhi : ¬(55296 ≤ c.toNat ∧ c.toNat < 56320) := by omega
    have hlo : ¬(56320 ≤ c.toNat ∧ c.toNat < 57344) := by omega
    simp [feed, Mode.step, Quoted.step, Quoted.unit, hhigh, hrest, hzero, hvalue, hhi, hlo,
      Char.ofNat_toNat]
  · rename_i hquote hslash _ _ _ _ _ hlow
    simp [feed, Mode.step, Quoted.step, Quoted.push, hquote, hslash, hlow]

theorem run_escapes (cs read : List Char) (b : Build) :
    run (cs.flatMap escape) (.quoted { read := read }, b) =
      (.quoted { read := cs.reverse ++ read }, b) := by
  induction cs generalizing read with
  | nil => rfl
  | cons c cs ih =>
    rw [List.flatMap_cons, run_append, run_escape, ih]
    simp

/-- A quoted text is read as it was. -/
theorem run_quote (s : String) (b : Build) :
    run (quote s) (.between, b) = (.between, b.step (.leaf (.text (some s)))) := by
  have hopen : feed (.between, b) (some '"') = (.quoted { read := [] }, b) := rfl
  rw [quote, run_cons, hopen, run_append, run_escapes]
  simp [feed, Mode.step, Quoted.step, Quoted.value, String.ofList_toList]

/-! ### Numbers -/

/-- These characters take a literal from one place to another. -/
def Reaches (cs : List Char) (p q : NumeralPlace) : Prop :=
  ∀ n, ∃ n', ∀ b, run cs (.numeral n p, b) = (.numeral n' q, b)

/-- These characters begin a literal, with or without a sign. -/
structure Starts (cs : List Char) (p : NumeralPlace) : Prop where
  plain : ∃ n, ∀ b, run cs (.between, b) = (.numeral n p, b)
  signed : ∃ n, ∀ b, run ('-' :: cs) (.between, b) = (.numeral n p, b)

variable {p q r : NumeralPlace}

theorem Reaches.refl (p : NumeralPlace) : Reaches [] p p := fun n => ⟨n, fun _ => rfl⟩

theorem Reaches.trans (h : Reaches cs p q) (h' : Reaches ds q r) : Reaches (cs ++ ds) p r := by
  intro n
  obtain ⟨n₁, h₁⟩ := h n
  obtain ⟨n₂, h₂⟩ := h' n₁
  exact ⟨n₂, fun b => by rw [run_append, h₁, h₂]⟩

theorem Starts.trans (h : Starts cs p) (h' : Reaches ds p q) : Starts (cs ++ ds) q := by
  constructor
  · obtain ⟨n, hn⟩ := h.plain
    obtain ⟨n', hn'⟩ := h' n
    exact ⟨n', fun b => by rw [run_append, hn, hn']⟩
  · obtain ⟨n, hn⟩ := h.signed
    obtain ⟨n', hn'⟩ := h' n
    exact ⟨n', fun b => by rw [← List.cons_append, run_append, hn, hn']⟩

theorem reaches_step {f : Numeral → Numeral} (h : ∀ n, n.extend p c = some (f n, q)) :
    Reaches [c] p q := by
  intro n
  exact ⟨f n, fun b => by simp [feed, Mode.step, h n]⟩

theorem digit_of_isDigit (h : c.isDigit) : ∃ d, digit? c = some d := by
  simp only [Char.isDigit, Bool.and_eq_true, decide_eq_true_eq] at h
  exact ⟨_, if_pos ⟨h.1, h.2⟩⟩

/-- The places that a digit does not leave. -/
def Digital (p : NumeralPlace) : Prop := p = .whole ∨ p = .fraction ∨ p = .exponent

theorem reaches_digit (hp : Digital p) (hc : c.isDigit) : Reaches [c] p p := by
  obtain ⟨d, hd⟩ := digit_of_isDigit hc
  rcases hp with rfl | rfl | rfl
  · exact reaches_step fun n => by simp only [Numeral.extend, hd]; rfl
  · exact reaches_step fun n => by simp only [Numeral.extend, hd]; rfl
  · exact reaches_step fun n => by simp only [Numeral.extend, hd]; rfl

theorem reaches_digits (hp : Digital p) (hcs : ∀ c ∈ cs, c.isDigit) : Reaches cs p p := by
  induction cs with
  | nil => exact .refl p
  | cons c cs ih =>
    exact (reaches_digit hp (hcs c List.mem_cons_self)).trans
      (ih fun d hd => hcs d (List.mem_cons_of_mem c hd))

theorem reaches_fraction (hcs : ∀ c ∈ cs, c.isDigit) (hne : cs ≠ []) :
    Reaches cs .point .fraction := by
  cases cs with
  | nil => exact absurd rfl hne
  | cons c cs =>
    obtain ⟨d, hd⟩ := digit_of_isDigit (hcs c List.mem_cons_self)
    have hfirst : Reaches [c] .point .fraction :=
      reaches_step fun n => by simp only [Numeral.extend, hd]; rfl
    exact hfirst.trans (reaches_digits (.inr (.inl rfl)) fun x hx => hcs x (List.mem_cons_of_mem c hx))

theorem reaches_exponent (hp : p = .mark ∨ p = .exponentSign) (hcs : ∀ c ∈ cs, c.isDigit)
    (hne : cs ≠ []) : Reaches cs p .exponent := by
  cases cs with
  | nil => exact absurd rfl hne
  | cons c cs =>
    obtain ⟨d, hd⟩ := digit_of_isDigit (hcs c List.mem_cons_self)
    have hfirst : Reaches [c] p .exponent := by
      rcases hp with rfl | rfl
      · exact reaches_step fun n => by simp only [Numeral.extend, hd]; rfl
      · exact reaches_step fun n => by simp only [Numeral.extend, hd]; rfl
    exact hfirst.trans (reaches_digits (.inr (.inr rfl)) fun x hx => hcs x (List.mem_cons_of_mem c hx))

theorem reaches_point (hp : p = .zero ∨ p = .whole) : Reaches ['.'] p .point := by
  rcases hp with rfl | rfl
  · exact reaches_step fun n => rfl
  · exact reaches_step fun n => rfl

theorem reaches_mark (hp : p = .zero ∨ p = .whole ∨ p = .fraction) : Reaches ['e'] p .mark := by
  rcases hp with rfl | rfl | rfl
  · exact reaches_step fun n => rfl
  · exact reaches_step fun n => rfl
  · exact reaches_step fun n => rfl

theorem reaches_sign (hc : c = '+' ∨ c = '-') : Reaches [c] .mark .exponentSign := by
  rcases hc with rfl | rfl
  · exact reaches_step fun n => rfl
  · exact reaches_step fun n => rfl

theorem starts_zero : Starts ['0'] .zero := ⟨⟨_, fun _ => rfl⟩, ⟨_, fun _ => rfl⟩⟩

theorem mem_digits (h : c.isDigit) : c ∈ ['0', '1', '2', '3', '4', '5', '6', '7', '8', '9'] := by
  simp only [Char.isDigit, Bool.and_eq_true, decide_eq_true_eq] at h
  have hlow : 48 ≤ c.toNat := h.1
  have hhigh : c.toNat ≤ 57 := h.2
  have hdigits : ∀ n ≤ 57, 48 ≤ n →
      Char.ofNat n ∈ ['0', '1', '2', '3', '4', '5', '6', '7', '8', '9'] := by decide
  have := hdigits c.toNat hhigh hlow
  rwa [Char.ofNat_toNat] at this

theorem starts_digit (hc : c.isDigit) (hz : c ≠ '0') : Starts [c] .whole := by
  have hmem := mem_digits hc
  simp only [List.mem_cons, List.not_mem_nil, or_false] at hmem
  rcases hmem with rfl | rfl | rfl | rfl | rfl | rfl | rfl | rfl | rfl | rfl
  · exact absurd rfl hz
  all_goals exact ⟨⟨_, fun _ => rfl⟩, ⟨_, fun _ => rfl⟩⟩

/-- Digits as numbers are written: a zero in front stands alone. -/
structure Plain (cs : List Char) : Prop where
  digits : ∀ c ∈ cs, c.isDigit
  head : cs = ['0'] ∨ ∃ c rest, cs = c :: rest ∧ c ≠ '0'

theorem Plain.starts (h : Plain cs) : ∃ p, (p = .zero ∨ p = .whole) ∧ Starts cs p := by
  rcases h.head with rfl | ⟨c, rest, rfl, hz⟩
  · exact ⟨.zero, .inl rfl, starts_zero⟩
  · have hfirst := starts_digit (h.digits c List.mem_cons_self) hz
    exact ⟨.whole, .inr rfl, hfirst.trans
      (reaches_digits (.inl rfl) fun x hx => h.digits x (List.mem_cons_of_mem c hx))⟩

theorem head_toDigits {n : Nat} (hn : 0 < n) :
    ∃ c rest, Nat.toDigits 10 n = c :: rest ∧ c ≠ '0' := by
  induction n using Nat.strongRecOn with
  | ind n ih =>
    by_cases hlt : n < 10
    · have hdigits : ∀ n < 10, 0 < n → n.digitChar ≠ '0' := by decide
      exact ⟨n.digitChar, [], Nat.toDigits_of_lt_base hlt, hdigits n hlt hn⟩
    · obtain ⟨c, rest, he, hc⟩ := ih (n / 10) (by omega) (by omega)
      refine ⟨c, rest ++ [(n % 10).digitChar], ?_, hc⟩
      rw [Nat.toDigits_of_base_le (by decide) (by omega), he, List.cons_append]

theorem isDigit_toDigits (n : Nat) : ∀ c ∈ Nat.toDigits 10 n, c.isDigit :=
  fun _ hc => Nat.isDigit_of_mem_toDigits (by decide) (by decide) hc

theorem plain_toDigits (n : Nat) : Plain (Nat.toDigits 10 n) := by
  refine ⟨isDigit_toDigits n, ?_⟩
  rcases Nat.eq_zero_or_pos n with rfl | hn
  · exact .inl rfl
  · exact .inr (head_toDigits hn)

/-! ### Doubles -/

open Decimal

theorem digitsOf_chars (m : Nat) :
    (digitsOf m).map (fun n => Char.ofNat (n + '0'.toNat)) = Nat.toDigits 10 m := by
  unfold digitsOf
  rw [List.map_map]
  refine (List.map_congr_left fun c hc => ?_).trans (List.map_id _)
  have hmem := mem_digits (isDigit_toDigits m c hc)
  simp only [List.mem_cons, List.not_mem_nil, or_false] at hmem
  rcases hmem with rfl | rfl | rfl | rfl | rfl | rfl | rfl | rfl | rfl | rfl
  all_goals rfl

theorem trim_pos {n : Nat} (hn : 0 < n) (fuel : Nat) : 0 < (trim fuel n).1 := by
  induction fuel generalizing n with
  | zero => exact hn
  | succ fuel ih =>
    unfold trim
    split
    · exact ih (by omega)
    · exact hn

theorem shortestFrom_pos {b : Binary} {point k : Int} {n fuel count : Nat}
    (h : b.shortestFrom point fuel count = some (n, k)) : 0 < n := by
  induction fuel generalizing count with
  | zero => cases h
  | succ fuel ih =>
    unfold Binary.shortestFrom at h
    split at h
    · split at h
      · exact ih h
      · cases h
        omega
    · exact ih h

/-- The digits of a double are those of a number, or a zero before the point. -/
theorem shortest_digits (b : Binary) :
    shortest b = ⟨[0], 1⟩ ∨ ∃ m, 0 < m ∧ (shortest b).digits = digitsOf m := by
  unfold shortest
  split
  · exact .inl rfl
  · rename_i n k h
    exact .inr ⟨(trim 20 n).1, trim_pos (shortestFrom_pos h) 20, rfl⟩

theorem isDigit_zeros (n : Nat) : ∀ c ∈ List.replicate n '0', c.isDigit := by
  intro c hc
  rw [List.eq_of_mem_replicate hc]
  rfl

theorem isDigit_append (hc : ∀ c ∈ cs, c.isDigit) (hd : ∀ c ∈ ds, c.isDigit) :
    ∀ c ∈ cs ++ ds, c.isDigit := by
  intro c h
  rcases List.mem_append.mp h with h | h
  · exact hc c h
  · exact hd c h

theorem starts_head {rest : List Char} (hc : c ≠ '0') (hd : ∀ x ∈ c :: rest, x.isDigit) :
    Starts (c :: rest) .whole :=
  (starts_digit (hd c List.mem_cons_self) hc).trans
    (reaches_digits (.inl rfl) fun x hx => hd x (List.mem_cons_of_mem c hx))

/-- A layout of digits that do not begin with a zero is a literal, up to an end of its own. -/
theorem starts_write {d : Digits} {rest : List Char}
    (he : d.digits.map (fun n => Char.ofNat (n + '0'.toNat)) = c :: rest) (hc : c ≠ '0')
    (hd : ∀ x ∈ c :: rest, x.isDigit) :
    ∃ p, (p = .fraction ∨ p = .exponent) ∧ Starts (doubleLayout.write d) p := by
  have hpoint : Reaches ['.'] .whole .point := reaches_point (.inr rfl)
  unfold Layout.write
  simp only [he]
  split
  · rename_i hpos
    refine ⟨.fraction, .inl rfl, ?_⟩
    split
    · have hwhole := (starts_head hc hd).trans
        (reaches_digits (.inl rfl) (isDigit_zeros (d.point - (c :: rest).length).toNat))
      have hzero : Reaches ['0'] .point .fraction := reaches_fraction (by simp) (by simp)
      exact hwhole.trans (hpoint.trans hzero)
    · rename_i hlen
      obtain ⟨k, hk⟩ : ∃ k, d.point.toNat = k + 1 := ⟨d.point.toNat - 1, by omega⟩
      rw [hk, List.take_succ_cons]
      have htake : ∀ x ∈ c :: rest.take k, x.isDigit := by
        intro x hx
        rcases List.mem_cons.mp hx with rfl | hx
        · exact hd x List.mem_cons_self
        · exact hd x (List.mem_cons_of_mem c (List.mem_of_mem_take hx))
      refine (starts_head hc htake).trans (hpoint.trans (reaches_fraction ?_ ?_))
      · exact fun x hx => hd x (List.mem_cons_of_mem c (List.mem_of_mem_drop hx))
      · simp only [List.length_cons] at hlen
        simp only [ne_eq, List.drop_eq_nil_iff]
        omega
  · split
    · have hdigits := isDigit_append (isDigit_zeros (-d.point).toNat) hd
      have hfrac := reaches_fraction hdigits (by simp)
      exact ⟨.fraction, .inl rfl, starts_zero.trans ((reaches_point (.inl rfl)).trans hfrac)⟩
    · refine ⟨.exponent, .inr rfl, ?_⟩
      have hdigit := starts_digit (hd c List.mem_cons_self) hc
      have hexp (p : NumeralPlace) (hp : p = .whole ∨ p = .fraction) : Reaches
          ('e' :: ((if d.point - 1 < 0 then ['-'] else ['+']) ++
            Nat.toDigits 10 (d.point - 1).natAbs)) p .exponent := by
        have hsign : Reaches (if d.point - 1 < 0 then ['-'] else ['+']) .mark .exponentSign := by
          split
          · exact reaches_sign (.inr rfl)
          · exact reaches_sign (.inl rfl)
        have hdigits := reaches_exponent (.inr rfl) (isDigit_toDigits (d.point - 1).natAbs)
          Nat.toDigits_ne_nil
        exact (reaches_mark (.inr hp)).trans (hsign.trans hdigits)
      cases rest with
      | nil => exact hdigit.trans (hexp .whole (.inl rfl))
      | cons x rest =>
        have hfrac : Reaches (x :: rest) .point .fraction :=
          reaches_fraction (fun y hy => hd y (List.mem_cons_of_mem c hy)) (by simp)
        exact (hdigit.trans (hpoint.trans hfrac)).trans (hexp .fraction (.inr rfl))

/-- A number may end here, and what follows it does not belong to it. -/
theorem hands_numeral {n : Numeral} (hp : p.complete) (b : Build) :
    Hands (.numeral n p, b) (b.step (.leaf (.number n.number))) := by
  refine ⟨by simp [Mode.finish, hp], fun c hc => ?_⟩
  have hdigit : digit? c = none := by
    simp only [List.mem_cons, List.not_mem_nil, or_false] at hc
    rcases hc with rfl | rfl | rfl <;> rfl
  have hextend : n.extend p c = none := by
    simp only [List.mem_cons, List.not_mem_nil, or_false] at hc
    rcases hc with rfl | rfl | rfl <;> cases p <;> rfl
  simp [feed, Mode.step, hextend, hp, hdigit]

/-- These characters are a leaf, which is over at the latest with what follows. -/
def Leaf (cs : List Char) (d : Document) : Prop :=
  ∀ b, Hands (run cs (.between, b)) (b.step (.leaf d))

theorem Starts.leaf (h : Starts cs p) (hp : p.complete) :
    (∃ d, Leaf cs d) ∧ ∃ d, Leaf ('-' :: cs) d := by
  constructor
  · obtain ⟨n, hn⟩ := h.plain
    exact ⟨.number n.number, fun b => hn b ▸ hands_numeral hp b⟩
  · obtain ⟨n, hn⟩ := h.signed
    exact ⟨.number n.number, fun b => hn b ▸ hands_numeral hp b⟩

theorem leaf_int (n : Int) : ∃ d, Leaf (intText n) d := by
  cases n with
  | ofNat n =>
    obtain ⟨p, hp, hs⟩ := (plain_toDigits n).starts
    exact (hs.leaf (by rcases hp with rfl | rfl <;> rfl)).1
  | negSucc n =>
    obtain ⟨p, hp, hs⟩ := (plain_toDigits (n + 1)).starts
    exact (hs.leaf (by rcases hp with rfl | rfl <;> rfl)).2

theorem starts_double (b : Binary) :
    ∃ p, (p = .fraction ∨ p = .exponent) ∧ Starts (doubleLayout.write (shortest b)) p := by
  rcases shortest_digits b with hz | ⟨m, hm, hd⟩
  · rw [hz]
    have hzero : Reaches ['0'] .point .fraction := reaches_fraction (by simp) (by simp)
    exact ⟨.fraction, .inl rfl, starts_zero.trans ((reaches_point (.inl rfl)).trans hzero)⟩
  · obtain ⟨c, rest, he, hc⟩ := head_toDigits hm
    have hchars : (shortest b).digits.map (fun n => Char.ofNat (n + '0'.toNat)) = c :: rest := by
      rw [hd, digitsOf_chars, he]
    exact starts_write hchars hc (he ▸ isDigit_toDigits m)

theorem leaf_real (bits : UInt64) : ∃ d, Leaf (realText bits) d := by
  have signed {cs : List Char} (negative : Prop) [Decidable negative]
      (h : ∃ p, (p = .fraction ∨ p = .exponent) ∧ Starts cs p) :
      ∃ d, Leaf ((if negative then ['-'] else []) ++ cs) d := by
    obtain ⟨p, hp, hs⟩ := h
    have hleaf := hs.leaf (by rcases hp with rfl | rfl <;> rfl)
    split
    · exact hleaf.2
    · exact hleaf.1
  unfold realText
  split
  · exact ⟨.null, fun b => hands_word b .null⟩
  · dsimp only
    split
    · refine signed _ ⟨.fraction, .inl rfl, ?_⟩
      have hzero : Reaches ['0'] .point .fraction := reaches_fraction (by simp) (by simp)
      exact starts_zero.trans ((reaches_point (.inl rfl)).trans hzero)
    · exact signed _ (starts_double _)

/-- What a leaf is read as is what its characters denote by themselves. -/
theorem Leaf.ofCharacters (h : Leaf cs d) : ofCharacters (cs.map some) = (d, false) := by
  rw [ofCharacters_run]
  dsimp only
  rw [(h _).finish]
  rfl

/-- What a printed number denotes. -/
def ofNumber (n : Number) : Document := (ofCharacters ((Number.chars n).map some)).1

theorem leaf_number (n : Number) : Leaf (Number.chars n) (ofNumber n) := by
  have hleaf : ∃ d, Leaf (Number.chars n) d := by
    cases n with
    | int k => exact leaf_int k
    | real bits => exact leaf_real bits
  obtain ⟨d, hd⟩ := hleaf
  unfold ofNumber
  rw [hd.ofCharacters]
  exact hd

/-! ### Values -/

mutual

/-- What a printed value denotes. -/
def printed : Json → Document
  | .null => .null
  | .bool b => .bool b
  | .num n => ofNumber n
  | .str s => .text (some s)
  | .arr items => .list (printedItems items)
  | .obj members => .record (printedMembers members)

def printedItems : List Json → List Document
  | [] => []
  | v :: vs => printed v :: printedItems vs

def printedMembers : List (String × Json) → List (Option String × Document)
  | [] => []
  | (k, v) :: vs => (some k, printed v) :: printedMembers vs

end

/-- A value may stand here. -/
def Awaited (place : Place) : Prop := place = .value ∨ place = .valueOrEnd

variable {place : Place} {layers : List Layer}

theorem Leaf.hands (h : Leaf cs d) (hp : Awaited place) :
    Hands (run cs (.between, .within layers place)) (.put layers d) := by
  have := h (.within layers place)
  rcases hp with rfl | rfl
  · exact this
  · exact this

theorem leaf_quote (s : String) : Leaf (quote s) (.text (some s)) := fun b => by
  rw [run_quote]
  exact .between _

theorem Hands.run_cons {s : Mode × Build} {b : Build} (h : Hands s b) (hc : c ∈ [',', ']', '}']) :
    run (c :: cs) s = run (c :: cs) (.between, b) := by
  rw [Document.run_cons, Document.run_cons, h.next c hc]

mutual

/-- A printed value is handed over as what it denotes. -/
theorem hands_chars (v : Json) (layers : List Layer) {place : Place} (hp : Awaited place) :
    Hands (run v.chars (.between, .within layers place)) (.put layers (printed v)) := by
  match v with
  | .null => exact Leaf.hands (d := .null) (fun b => hands_word b _) hp
  | .bool true => exact Leaf.hands (d := .bool true) (fun b => hands_word b _) hp
  | .bool false => exact Leaf.hands (d := .bool false) (fun b => hands_word b _) hp
  | .num n =>
    rw [chars, printed]
    exact (leaf_number n).hands hp
  | .str s =>
    rw [chars, printed]
    exact (leaf_quote s).hands hp
  | .arr [] =>
    rcases hp with rfl | rfl
    · exact .between _
    · exact .between _
  | .arr (v :: vs) =>
    have hopen : feed (.between, .within layers place) (some '[') =
        (.between, .within (.list [] :: layers) .valueOrEnd) := by
      rcases hp with rfl | rfl <;> rfl
    rw [chars, run_cons, hopen, run_items (v :: vs) (by simp) [] layers (.inr rfl), printed]
    exact .between _
  | .obj [] =>
    rcases hp with rfl | rfl
    · exact .between _
    · exact .between _
  | .obj ((k, v) :: rest) =>
    have hopen : feed (.between, .within layers place) (some '{') =
        (.between, .within (.record [] none :: layers) .nameOrEnd) := by
      rcases hp with rfl | rfl <;> rfl
    rw [chars, run_cons, hopen, run_members ((k, v) :: rest) (by simp) [] layers (.inl rfl), printed]
    exact .between _

theorem run_items (vs : List Json) (hne : vs ≠ []) (items : List Document) (layers : List Layer)
    {place : Place} (hp : Awaited place) :
    run (itemChars vs ++ [']']) (.between, .within (.list items :: layers) place) =
      (.between, .put layers (.list (items.reverse ++ printedItems vs))) := by
  match vs with
  | [] => exact absurd rfl hne
  | [v] =>
    rw [itemChars, run_append, (hands_chars v _ hp).run_cons (by simp)]
    simp [feed, Mode.step, begin, isBlank, Build.put, Build.step, printedItems]
  | v :: w :: vs =>
    have hnext : feed (.between, .put (.list items :: layers) (printed v)) (some ',') =
        (.between, .within (.list (printed v :: items) :: layers) .value) := rfl
    rw [itemChars, List.append_assoc, run_append, List.cons_append,
      (hands_chars v _ hp).run_cons (by simp), run_cons, hnext,
      run_items (w :: vs) (by simp) (printed v :: items) layers (.inl rfl)]
    simp [printedItems]

theorem run_members (vs : List (String × Json)) (hne : vs ≠ [])
    (members : List (Option String × Document)) (layers : List Layer) {place : Place}
    (hp : place = .nameOrEnd ∨ place = .name) :
    run (memberChars vs ++ ['}']) (.between, .within (.record members none :: layers) place) =
      (.between, .put layers (.record (members.reverse ++ printedMembers vs))) := by
  have hname (k : String) : run (quote k) (.between, .within (.record members none :: layers) place) =
      (.between, .within (.record members (some k) :: layers) .colon) := by
    rw [run_quote]
    rcases hp with rfl | rfl <;> rfl
  have hcolon (k : String) :
      feed (.between, .within (.record members (some k) :: layers) .colon) (some ':') =
        (.between, .within (.record members (some k) :: layers) .value) := rfl
  match vs with
  | [] => exact absurd rfl hne
  | [(k, v)] =>
    rw [memberChars, List.append_assoc, run_append, hname, List.cons_append, run_cons, hcolon,
      run_append, (hands_chars v _ (.inl rfl)).run_cons (by simp)]
    simp [feed, Mode.step, begin, isBlank, Build.put, Build.step, printedMembers]
  | (k, v) :: w :: rest =>
    have hnext : feed (.between, .put (.record members (some k) :: layers) (printed v)) (some ',') =
        (.between, .within (.record ((some k, printed v) :: members) none :: layers) .name) := rfl
    rw [memberChars, List.append_assoc, run_append, hname, List.cons_append, run_cons, hcolon,
      List.append_assoc, run_append, List.cons_append,
      (hands_chars v _ (.inl rfl)).run_cons (by simp), run_cons, hnext,
      run_members (w :: rest) (by simp) ((some k, printed v) :: members) layers (.inr rfl)]
    simp [printedMembers]

end

/-- A printed value is read as what it denotes, and nothing is left. -/
theorem ofText_print (v : Json) : ofText v.print = (printed v, false) := by
  unfold ofText Json.print
  rw [String.toList_ofList, ofCharacters_run]
  dsimp only
  rw [(hands_chars v [] (.inl rfl)).finish]
  rfl

end Document

/-- The text of one value is read as another: numbers may lose what a reader does not keep. -/
def ReadsAs (v w : Json) : Prop := ofText? v.print = some w

theorem readsAs_iff {v w : Json} :
    v.ReadsAs w ↔ (Document.printed v).value? depthLimit = some w := by
  unfold ReadsAs ofText?
  rw [Document.ofText_print]

end Fleet.Json
