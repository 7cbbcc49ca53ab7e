import Fleet.Json.Reader
import Fleet.Proofs.Json.Scanning
import Mathlib.Data.List.Forall2

/-!
Reading records that were printed. What a form finds under a name is what the record was given under
that name, in whatever order the members stand, and a tag is told apart from the members it rules.
-/

namespace Fleet

namespace Json

open Document (printed printedMembers)

variable {α : Type}

theorem ofText_print (r : Reader α) (v : Json) :
    r.ofText v.print = r ⟨.stream, depthLimit⟩ (printed v) := by
  unfold Reader.ofText Reader.whole
  rw [Document.ofText_print]
  cases r ⟨.stream, depthLimit⟩ (printed v) <;> rfl

theorem map_ok {ε β : Type} {f : α → β} {x : Except ε α} {b : β} (h : x.map f = .ok b) :
    ∃ a, x = .ok a ∧ f a = b := by
  cases x with
  | error e => cases h
  | ok a =>
    cases h
    exact ⟨a, rfl, rfl⟩

theorem bind_ok {ε β : Type} {x : Except ε α} {f : α → Except ε β} {b : β} (h : x >>= f = .ok b) :
    ∃ a, x = .ok a ∧ f a = .ok b := by
  cases x with
  | error e => cases h
  | ok a => exact ⟨a, rfl, h⟩

namespace Reader

/-- What a whole input is read as is what its document is read as. -/
theorem whole_ok {r : Reader α} {input : Document × Bool} {a : α} (h : r.whole input = .ok a) :
    r ⟨.stream, depthLimit⟩ input.1 = .ok a := by
  obtain ⟨b, hb, h⟩ := bind_ok h
  split at h
  · cases h
  · cases h
    exact hb

theorem nat64_lt {ctx : Context} {d : Document} {n : Nat} (h : nat64 ctx d = .ok n) : n < bitBound 64 := by
  obtain ⟨m, hm, rfl⟩ := map_ok h
  unfold integer at hm
  split at hm
  · split at hm
    · rename_i hrange
      cases hm
      simp only [bitBound_64] at hrange ⊢
      omega
    · cases hm
  · cases hm

theorem whole_aside {room : Nat} {d : Document} {w : Json}
    (h : d.whole ⟨.aside, room⟩ = .ok w) : d.value? depthLimit = some w := by
  unfold Document.whole at h
  dsimp only at h
  split at h
  · rename_i v hv
    cases h
    exact hv
  · cases h

/-- Where a value may be missing, null is read as none, and counts as null. -/
theorem optional_aside {room : Nat} {d : Document} {x : Option Json}
    (h : any.optional ⟨.aside, room⟩ d = .ok x) : d.value? depthLimit = some (x.getD .null) := by
  have some? (h : (any ⟨.aside, room⟩ d).map some = .ok x) :
      d.value? depthLimit = some (x.getD .null) := by
    obtain ⟨w, hw, rfl⟩ := map_ok h
    exact whole_aside hw
  cases d with
  | null =>
    cases h
    rfl
  | _ => exact some? h

variable {tag : String} {choices : List (String × α)} {ctx : Context}
  {members rest acc : List (Option String × Document)} {seen : Option α} {a : α}

/-- The tag is told apart from the other members, wherever it stands. -/
theorem untag_ok (h : untag tag choices ctx members seen acc = .ok (a, rest)) :
    rest = acc ++ members.filter (fun m => m.1 ≠ some tag) ∧
      (∀ a', seen = some a' → a = a' ∧ ∀ m ∈ members, m.1 ≠ some tag) ∧
      ∀ d, (some tag, d) ∈ members → untag.tagOf choices ctx d = .ok a := by
  induction members generalizing seen acc with
  | nil =>
    cases seen with
    | none => cases h
    | some a' =>
      cases h
      exact ⟨by simp, fun b hb => ⟨Option.some.inj hb, by simp⟩, by simp⟩
  | cons m members ih =>
    obtain ⟨k, d⟩ := m
    cases k with
    | none => cases h
    | some k =>
      unfold untag at h
      by_cases hk : k = tag
      · subst hk
        rw [if_pos rfl] at h
        cases seen with
        | some a' => cases h
        | none =>
          simp only [Option.isSome_none, Bool.false_eq_true, ↓reduceIte] at h
          cases htag : untag.tagOf choices ctx d with
          | error e =>
            rw [htag] at h
            cases h
          | ok a' =>
            rw [htag] at h
            obtain ⟨hrest, hseen, _⟩ := ih h
            obtain ⟨rfl, hnone⟩ := hseen a' rfl
            refine ⟨by simpa using hrest, (by simp), fun d' hd' => ?_⟩
            rcases List.mem_cons.mp hd' with he | hmem
            · cases he
              exact htag
            · exact absurd rfl (hnone _ hmem)
      · rw [if_neg hk] at h
        cases hwhole : d.whole ctx with
        | error e =>
          rw [hwhole] at h
          cases h
        | ok w =>
          rw [hwhole] at h
          obtain ⟨hrest, hseen, htag⟩ := ih h
          refine ⟨by simp [hrest, hk], fun a' ha' => ⟨(hseen a' ha').1, ?_⟩, fun d' hd' => ?_⟩
          · exact List.forall_mem_cons.mpr ⟨by simpa using hk, (hseen a' ha').2⟩
          · rcases List.mem_cons.mp hd' with he | hmem
            · cases he
              exact absurd rfl hk
            · exact htag d' hmem

end Reader

section

variable {β : Type} {r : Reader β} {write : α → Json} {R : α → β → Prop} {room : Nat}
  {as : List α} {bs : List β}

theorem Reader.each_ok {i : Nat}
    (hr : ∀ a b, r ⟨.aside, room⟩ (printed (write a)) = .ok b → R a b)
    (h : r.each ⟨.aside, room⟩ i (Document.printedItems (as.map write)) = .ok bs) :
    List.Forall₂ R as bs := by
  induction as generalizing i bs with
  | nil =>
    cases h
    exact .nil
  | cons a as ih =>
    simp only [List.map_cons, Document.printedItems, Reader.each, bind, Except.bind] at h
    cases hb : r ⟨.aside, room⟩ (printed (write a)) with
    | error e =>
      simp only [hb, inside] at h
      cases h
    | ok b =>
      simp only [hb, inside] at h
      cases hrest : r.each ⟨.aside, room⟩ (i + 1) (Document.printedItems (as.map write)) with
      | error e =>
        simp only [hrest] at h
        cases h
      | ok rest =>
        simp only [hrest] at h
        cases h
        exact .cons (hr a b hb) (ih hrest)

/-- A printed list is read item by item. -/
theorem Reader.list_ok
    (hr : ∀ room a b, r ⟨.aside, room⟩ (printed (write a)) = .ok b → R a b)
    (h : r.list ⟨.aside, room⟩ (printed (.arr (as.map write))) = .ok bs) : List.Forall₂ R as bs :=
  each_ok (hr (room - 1)) h

end

/-! ### Members -/

theorem lookup_cons_if {κ β : Type} [BEq κ] [LawfulBEq κ] [DecidableEq κ] (n k : κ) (v : β)
    (l : List (κ × β)) : ((k, v) :: l).lookup n = if n = k then some v else l.lookup n := by
  rw [List.lookup_cons]
  by_cases h : n = k
  · simp [h]
  · rw [beq_eq_false_iff_ne.mpr h, if_neg h]

theorem lookup_putMember (k n : String) (v : Json) (ms : List (String × Json)) :
    (putMember k v ms).lookup n = if n = k then some v else ms.lookup n := by
  induction ms with
  | nil => rw [putMember, lookup_cons_if]
  | cons m ms ih =>
    obtain ⟨l, w⟩ := m
    unfold putMember
    split
    · rw [lookup_cons_if]
    · split
      · rename_i hkl
        subst hkl
        simp only [lookup_cons_if]
        split <;> rfl
      · rename_i hkl
        simp only [lookup_cons_if, ih]
        by_cases hn : n = l
        · subst hn
          simp [Ne.symm hkl]
        · simp [hn]

theorem lookup_members (ms acc : List (String × Json)) (n : String) :
    (ms.foldl (fun acc (k, v) => putMember k v acc) acc).lookup n =
      (ms.reverse.lookup n).or (acc.lookup n) := by
  induction ms generalizing acc with
  | nil => rfl
  | cons m ms ih =>
    obtain ⟨k, v⟩ := m
    rw [List.foldl_cons, ih, lookup_putMember, List.reverse_cons, List.lookup_append, lookup_cons_if]
    by_cases hn : n = k <;> simp [hn]

theorem lookup_printedMembers (ms : List (String × Json)) (n : String) :
    (printedMembers ms).lookup (some n) = (ms.lookup n).map printed := by
  induction ms with
  | nil => rfl
  | cons m ms ih =>
    obtain ⟨k, v⟩ := m
    rw [printedMembers, lookup_cons_if, lookup_cons_if, ih]
    by_cases hn : n = k <;> simp [hn]

/-- The members of a printed record, by name. -/
structure Shows (d : Document) (ms : List (String × Json)) (members : List (Option String × Document)) :
    Prop where
  record : d = .record members
  lookup : ∀ n, members.lookup (some n) = (ms.reverse.lookup n).map printed

theorem shows_object (ms : List (String × Json)) : ∃ members, Shows (printed (object ms)) ms members := by
  refine ⟨_, rfl, fun n => ?_⟩
  rw [lookup_printedMembers, lookup_members]
  simp

theorem lookup_others {tag n : String} (hn : n ≠ tag) (members : List (Option String × Document)) :
    (members.filter fun m => m.1 ≠ some tag).lookup (some n) = members.lookup (some n) := by
  induction members with
  | nil => rfl
  | cons m members ih =>
    obtain ⟨k, d⟩ := m
    by_cases hk : k = some tag
    · subst hk
      rw [List.filter_cons_of_neg (by simp), ih, lookup_cons_if, if_neg (by simpa using hn)]
    · rw [List.filter_cons_of_pos (by simpa using hk), lookup_cons_if, lookup_cons_if, ih]

/-- A printed record with a tag is read as the tag says, from its other members. -/
theorem Reader.tagged_ok {title tag k : String} {choices : List (String × Reader α)}
    {ms : List (String × Json)} {a : α} (hk : ms.reverse.lookup tag = some (.str k))
    (h : Reader.tagged title tag choices ⟨.stream, depthLimit⟩ (printed (object ms)) = .ok a) :
    ∃ r room rest, choices.lookup k = some r ∧ r ⟨.aside, room⟩ (.record rest) = .ok a ∧
      ∀ n, n ≠ tag → rest.lookup (some n) = (ms.reverse.lookup n).map printed := by
  obtain ⟨members, hd, hlookup⟩ := shows_object ms
  rw [hd] at h
  unfold Reader.tagged at h
  have henter : Context.enter ⟨.stream, depthLimit⟩ = .ok ⟨.stream, depthLimit - 1⟩ := rfl
  simp only [henter, bind, Except.bind] at h
  cases hu : untag tag choices ⟨.stream, depthLimit - 1⟩ members none [] with
  | error e =>
    rw [hu] at h
    cases h
  | ok x =>
    obtain ⟨r, rest⟩ := x
    rw [hu] at h
    obtain ⟨hrest, _, htag⟩ := untag_ok hu
    have hmem : (some tag, Document.text (some k)) ∈ members := by
      obtain ⟨before, after, rfl, _⟩ := List.lookup_eq_some_iff.mp ((hlookup tag).trans (by rw [hk]; rfl))
      simp [printed]
    have hnamed : named choices k = .ok r := htag _ hmem
    refine ⟨r, _, rest, ?_, h, fun n hn => ?_⟩
    · unfold named at hnamed
      split at hnamed
      · cases hnamed
        assumption
      · cases hnamed
    · rw [hrest, List.nil_append, lookup_others hn, hlookup]

/-! ### Forms -/

namespace Form

variable {β : Type} {ctx : Context} {found acc : List (String × Document)}
  {members : List (Option String × Document)} {slots : List Slot}

/-- What is found under the name of a slot is what the record has there. -/
theorem collect_lookup (h : collect slots ctx members acc = .ok found)
    (hs : ∀ s ∈ slots, s.others = []) {n : String} (hn : ∃ s ∈ slots, s.name = n) :
    found.lookup n = (acc.lookup n).or (members.lookup (some n)) := by
  induction members generalizing acc with
  | nil =>
    cases h
    simp
  | cons m members ih =>
    obtain ⟨k, d⟩ := m
    cases k with
    | none => cases h
    | some k =>
      unfold collect at h
      split at h
      · rename_i hfind
        have hne : n ≠ k := by
          rintro rfl
          obtain ⟨s, hmem, hname⟩ := hn
          have := List.find?_eq_none.mp hfind s hmem
          simp [hname] at this
        cases hskip : inside (.name k) (d.skip ctx) with
        | error e =>
          rw [hskip] at h
          cases h
        | ok u =>
          rw [hskip] at h
          rw [ih h, lookup_cons_if, if_neg (by simpa using hne)]
      · rename_i s hfind
        have hk : s.name = k := by
          have := List.find?_some hfind
          simpa [hs s (List.mem_of_find?_eq_some hfind)] using this
        subst hk
        split at h
        · cases h
        · rename_i hnew
          cases hcheck : inside (.name s.name) (s.check ctx d) with
          | error e =>
            rw [hcheck] at h
            cases h
          | ok u =>
            rw [hcheck] at h
            have hacc : acc.lookup s.name = none := Option.not_isSome_iff_eq_none.mp hnew
            rw [ih h, List.lookup_append, lookup_cons_if, lookup_cons_if]
            by_cases hsn : n = s.name
            · subst hsn
              simp [hacc]
            · simp [hsn]

/-- A record is read by what it has under the names of a form. -/
theorem reader_record {form : Form α} {title : String} {a : α}
    (h : form.reader title ctx (.record members) = .ok a)
    (hs : (form.slots.all fun s => s.others.isEmpty) = true) :
    ∃ room found, form.build ⟨ctx.source, room⟩ found = .ok a ∧
      ∀ n, (form.slots.any fun s => s.name == n) = true →
        found.lookup n = members.lookup (some n) := by
  unfold Form.reader at h
  cases hctx : ctx.enter with
  | error e =>
    simp only [hctx] at h
    cases h
  | ok inner =>
    simp only [hctx] at h
    cases hfound : collect form.slots inner members [] with
    | error e =>
      simp only [bind, Except.bind, hfound] at h
      cases h
    | ok found =>
      simp only [bind, Except.bind, hfound] at h
      have hsource : inner = ⟨ctx.source, ctx.room - 1⟩ := by
        unfold Context.enter at hctx
        split at hctx
        · cases hctx
        · cases hctx
          rfl
      subst hsource
      refine ⟨_, found, h, fun n hn => ?_⟩
      rw [collect_lookup hfound (by simpa using hs) (by simpa using hn)]
      simp

/-- What a record or a list of its values is read as was built by its form. -/
theorem reader_ok {form : Form α} {title : String} {d : Document} {a : α}
    (h : form.reader title ctx d = .ok a) : ∃ inner found, form.build inner found = .ok a := by
  unfold reader at h
  split at h
  · obtain ⟨inner, -, h⟩ := bind_ok h
    obtain ⟨found, -, h⟩ := bind_ok h
    exact ⟨inner, found, h⟩
  · obtain ⟨inner, -, h⟩ := bind_ok h
    obtain ⟨⟨found, rest⟩, -, h⟩ := bind_ok h
    obtain ⟨b, hbuild, h⟩ := bind_ok h
    refine ⟨inner, found, ?_⟩
    cases hb : form.build inner found with
    | error e =>
      rw [hb] at hbuild
      cases hbuild
    | ok c =>
      rw [hb] at hbuild
      cases hbuild
      split at h
      · exact h
      · cases h
  · cases h

theorem seq_ok {f : Form (α → β)} {x : Form α} {b : β}
    (h : (f <*> x).build ctx found = .ok b) :
    ∃ g a, f.build ctx found = .ok g ∧ x.build ctx found = .ok a ∧ g a = b := by
  change (do
    let g ← f.build ctx found
    let a ← x.build ctx found
    return g a) = Except.ok b at h
  cases hf : f.build ctx found with
  | error e =>
    rw [hf] at h
    cases h
  | ok g =>
    cases hx : x.build ctx found with
    | error e =>
      rw [hf, hx] at h
      cases h
    | ok a =>
      rw [hf, hx] at h
      cases h
      exact ⟨g, a, rfl, rfl, rfl⟩

theorem map_ok {f : α → β} {x : Form α} {b : β} (h : (f <$> x).build ctx found = .ok b) :
    ∃ a, x.build ctx found = .ok a ∧ f a = b := by
  obtain ⟨g, a, hg, ha, hb⟩ := seq_ok (f := pure f) (x := x) h
  cases hg
  exact ⟨a, ha, hb⟩

theorem required_ok {name : String} {r : Reader α} {a : α}
    (h : (required name r).build ctx found = .ok a) :
    ∃ d, found.lookup name = some d ∧ r ctx d = .ok a := by
  simp only [required] at h
  split at h
  · exact ⟨_, ‹_›, h⟩
  · cases h

theorem defaulted_ok {name : String} {r : Reader α} {absent a : α}
    (h : (defaulted name r absent).build ctx found = .ok a) :
    (∃ d, found.lookup name = some d ∧ r ctx d = .ok a) ∨
      found.lookup name = none ∧ a = absent := by
  simp only [defaulted, defaultedAs] at h
  split at h
  · exact .inl ⟨_, ‹_›, h⟩
  · cases h
    exact .inr ⟨‹_›, rfl⟩

end Form

end Json

end Fleet
