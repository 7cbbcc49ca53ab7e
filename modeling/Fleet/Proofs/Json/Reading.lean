import Fleet.Proofs.Json.Records
import Fleet.Proofs.Json.Values

/-!
Readers that give what was written. What was set aside is read without regard to the room that is
left, member by member: a form gives a record when each of its members is given what stands there.
-/

namespace Fleet.Json

open Document (printed printedItems printedMembers)

variable {α β : Type}

/-- The reader gives `a` for a document that was set aside. -/
def Reader.Gives (r : Reader α) (d : Document) (a : α) : Prop := ∀ room, r ⟨.aside, room⟩ d = .ok a

theorem whole_printed {v : Json} {ctx : Context} (hv : v.Proper) (hroom : v.depth ≤ ctx.room)
    (hlimit : v.depth ≤ depthLimit) : (printed v).whole ctx = .ok v := by
  have hdepth : v.depth ≤ if ctx.source = .stream then ctx.room else depthLimit := by
    split
    · exact hroom
    · exact hlimit
  simp only [Document.whole, value?_printed v _ hv hdepth]

namespace Reader

variable {r : Reader α} {d : Document} {a : α}

theorem Gives.map {f : α → β} (h : r.Gives d a) :
    Gives (fun ctx d => (r ctx d).map f) d (f a) := by
  intro room
  dsimp only
  rw [h room]
  rfl

/-! ### Values in any context -/

variable {ctx : Context}

theorem text_in (ctx : Context) (s : String) : text ctx (printed (.str s)) = .ok s := rfl

theorem integer_in (ctx : Context) {low high n : Int} {range : String} (hn : Number.Exact n)
    (h : low ≤ n ∧ n ≤ high) : integer low high range ctx (printed (.int n)) = .ok n := by
  rw [Json.int, printed, Document.ofNumber_exact hn, integer, if_pos h]

theorem nat64_in (ctx : Context) {n : Nat} (h : n < bitBound 64) : nat64 ctx (printed (.nat n)) = .ok n := by
  simp only [bitBound_64] at h
  have hread : integer 0 (bitBound 64 - 1) "u64" ctx (printed (.int n)) = .ok (n : Int) := integer_in ctx
    ⟨by simp only [bitBound_63]; omega, by simp only [bitBound_64]; omega⟩
    ⟨by omega, by simp only [bitBound_64]; omega⟩
  rw [nat64, natural, Json.nat]
  rw [Json.int] at hread
  rw [hread]
  rfl

theorem optional_in (h : r ctx d = .ok a) (hd : d ≠ .null) : r.optional ctx d = .ok (some a) := by
  have hmap : (r ctx d).map some = .ok (some a) := by
    rw [h]
    rfl
  cases d with
  | null => exact absurd rfl hd
  | _ => exact hmap

theorem choice_in (ctx : Context) {choices : List (String × α)} {s : String} (h : choices.lookup s = some a) :
    choice choices ctx (printed (.str s)) = .ok a := by
  simp only [printed, choice, named, h]

variable {as : List α} {write : α → Json} {read : α → β} {item : Reader β}

/-- A list that may be entered is given item by item. -/
theorem list_in {inner : Context} (hroom : ctx.enter = .ok inner)
    (h : ∀ a ∈ as, item inner (printed (write a)) = .ok (read a)) :
    item.list ctx (printed (.arr (as.map write))) = .ok (as.map read) := by
  have heach (i : Nat) : item.each inner i (printedItems (as.map write)) = .ok (as.map read) := by
    clear hroom
    induction as generalizing i with
    | nil => rfl
    | cons a as ih =>
      have hrest := ih (fun b hb => h b (List.mem_cons_of_mem a hb)) (i + 1)
      simp only [List.map_cons, printedItems, each, h a List.mem_cons_self, inside, hrest]
      rfl
  change (do item.each (← ctx.enter) 0 (printedItems (as.map write))) = Except.ok (as.map read)
  rw [hroom]
  exact heach 0

/-! ### Values set aside -/

theorem text_gives (s : String) : text.Gives (printed (.str s)) s := fun _ => rfl

theorem int64_gives {n : Int} (h : -(bitBound 63 : Int) ≤ n ∧ n < bitBound 63) :
    int64.Gives (printed (.int n)) n := fun room => by
  obtain ⟨hlow, hhigh⟩ := h
  simp only [bitBound_63] at hlow hhigh
  refine integer_in _ ⟨?_, ?_⟩ ⟨?_, ?_⟩ <;> simp only [bitBound_63, bitBound_64] <;> omega

theorem nat64_gives {n : Nat} (h : n < bitBound 64) : nat64.Gives (printed (.nat n)) n := fun _ => nat64_in _ h

theorem any_gives {v : Json} (hv : v.Proper) (hd : v.depth ≤ depthLimit) :
    any.Gives (printed v) v := by
  intro room
  have hvalue := value?_printed v depthLimit hv hd
  simp [any, Document.whole, hvalue]

theorem optional_gives (h : r.Gives d a) (hd : d ≠ .null) : r.optional.Gives d (some a) := fun room =>
  optional_in (h room) hd

theorem optional_null (r : Reader α) : r.optional.Gives .null none := fun _ => rfl

theorem choice_gives {choices : List (String × α)} {s : String} (h : choices.lookup s = some a) :
    (choice choices).Gives (printed (.str s)) a := fun _ => choice_in _ h

/-- A list is given item by item. -/
theorem list_gives (h : ∀ a ∈ as, item.Gives (printed (write a)) (read a)) :
    item.list.Gives (printed (.arr (as.map write))) (as.map read) := fun room =>
  list_in rfl fun a ha => h a ha (room - 1)

variable {es : List (String × α)}

/-- Entries are given in the order of their names. -/
theorem table_gives (h : ∀ e ∈ es, r.Gives (printed (write e.2)) e.2) :
    r.table.Gives (printed (object (es.map fun e => (e.1, write e.2)))) (ordered es) := by
  have hentries (ctx : Context) (hctx : ctx.source = .aside) (fs acc : List (String × α))
      (hfs : ∀ e ∈ fs, r.Gives (printed (write e.2)) e.2) :
      r.entries ctx (printedMembers (fs.map fun e => (e.1, write e.2))) acc =
        .ok (fs.foldl (fun acc e => put e.1 e.2 acc) acc) := by
    obtain ⟨source, room⟩ := ctx
    cases hctx
    induction fs generalizing acc with
    | nil => rfl
    | cons e fs ih =>
      have hfirst := hfs e List.mem_cons_self room
      have hrest := ih (put e.1 e.2 acc) fun b hb => hfs b (List.mem_cons_of_mem e hb)
      simp only [List.map_cons, printedMembers, entries, hfirst, inside]
      exact hrest
  intro room
  rw [object_eq, ordered_map write, printed]
  refine (hentries ⟨.aside, room - 1⟩ rfl (ordered es) [] fun e he => h e (mem_ordered he)).trans ?_
  exact congrArg _ (ordered_of_sorted (sorted_ordered es))

end Reader

/-! ### Records -/

/-- Every member has a name of its own. -/
structure Named (members : List (Option String × Document)) : Prop where
  named : ∀ m ∈ members, m.1 ≠ none
  distinct : (members.map Prod.fst).Nodup

theorem Named.filter {members : List (Option String × Document)} (h : Named members)
    (keep : Option String × Document → Bool) : Named (members.filter keep) :=
  ⟨fun m hm => h.named m (List.mem_filter.mp hm).1, h.distinct.sublist (List.filter_sublist.map _)⟩

theorem named_printedMembers {ms : List (String × Json)} (h : (ms.map Prod.fst).Pairwise (· < ·)) :
    Named (printedMembers ms) := by
  have hnames : (printedMembers ms).map Prod.fst = (ms.map Prod.fst).map some := by
    induction ms with
    | nil => rfl
    | cons m ms ih => simp [printedMembers, ih (List.pairwise_cons.mp h).2]
  constructor
  · intro m hm hnone
    have hmem : m.1 ∈ (printedMembers ms).map Prod.fst := List.mem_map.mpr ⟨m, hm, rfl⟩
    rw [hnames, hnone] at hmem
    simp at hmem
  · rw [hnames]
    exact (h.imp fun hlt => ne_of_lt hlt).map _ fun _ _ hne => by simpa using hne

theorem lookup_ordered (ms : List (String × Json)) (n : String) :
    (ordered ms).lookup n = ms.reverse.lookup n := by
  have hall := lookup_members ms [] n
  simp only [putMember_eq] at hall
  rw [ordered, hall]
  simp

/-- What an object holds under a name is nested less deep than the object. -/
theorem depth_lt_of_lookup {ms : List (String × Json)} {n : String} {v : Json}
    (h : ms.reverse.lookup n = some v) : v.depth < (object ms).depth := by
  obtain ⟨before, after, hsplit, _⟩ := List.lookup_eq_some_iff.mp ((lookup_ordered ms n).trans h)
  exact depth_lt_of_ordered (k := n) (by simp [hsplit])

/-- A printed object holds under a name what it was given last under that name. -/
theorem printed_object (ms : List (String × Json)) : ∃ members,
    printed (object ms) = .record members ∧ Named members ∧
      ∀ n, members.lookup (some n) = (ms.reverse.lookup n).map printed := by
  refine ⟨printedMembers (ordered ms), ?_, named_printedMembers (sorted_ordered ms), fun n => ?_⟩
  · rw [object_eq, printed]
  · rw [lookup_printedMembers, lookup_ordered]

namespace Form

/-- The form gives `a` in a context, for what stands under the names of its slots. -/
structure GivesIn (ctx : Context) (form : Form α) (members : List (Option String × Document)) (a : α) : Prop where
  plain : ∀ s ∈ form.slots, s.others = []
  checks : ∀ s ∈ form.slots, ∀ d, members.lookup (some s.name) = some d → s.check ctx d = .ok ()
  build : ∀ found, (∀ s ∈ form.slots, found.lookup s.name = members.lookup (some s.name)) →
    form.build ctx found = .ok a

/-- The form gives `a` for what stands under the names of its slots. -/
structure Gives (form : Form α) (members : List (Option String × Document)) (a : α) : Prop where
  plain : ∀ s ∈ form.slots, s.others = []
  checks : ∀ s ∈ form.slots, ∀ d, members.lookup (some s.name) = some d → s.check.Gives d ()
  build : ∀ room found, (∀ s ∈ form.slots, found.lookup s.name = members.lookup (some s.name)) →
    form.build ⟨.aside, room⟩ found = .ok a

variable {ctx : Context} {form : Form α} {members : List (Option String × Document)} {name title : String}
  {r : Reader α} {d : Document} {a : α}

theorem Gives.inAside (h : form.Gives members a) (room : Nat) : GivesIn ⟨.aside, room⟩ form members a :=
  ⟨h.plain, fun s hs d hd => h.checks s hs d hd room, h.build room⟩

theorem GivesIn.gives (h : ∀ room, GivesIn ⟨.aside, room⟩ form members a) : form.Gives members a :=
  ⟨(h 0).plain, fun s hs d hd room => (h room).checks s hs d hd, fun room => (h room).build⟩

/-! ### Members one by one -/

theorem pure_givesIn (a : α) : GivesIn ctx (pure a : Form α) members a :=
  ⟨nofun, nofun, fun _ _ => rfl⟩

theorem GivesIn.seq {f : Form (α → β)} {x : Form α} {g : α → β} (hf : GivesIn ctx f members g)
    (hx : GivesIn ctx x members a) : GivesIn ctx (f <*> x) members (g a) := by
  have hslots : (f <*> x).slots = f.slots ++ x.slots := rfl
  refine ⟨?_, ?_, ?_⟩
  · intro s hs
    rcases List.mem_append.mp (hslots ▸ hs) with hs | hs
    · exact hf.plain s hs
    · exact hx.plain s hs
  · intro s hs
    rcases List.mem_append.mp (hslots ▸ hs) with hs | hs
    · exact hf.checks s hs
    · exact hx.checks s hs
  · intro found hfound
    have hg := hf.build found fun s hs => hfound s (hslots ▸ List.mem_append_left _ hs)
    have ha := hx.build found fun s hs => hfound s (hslots ▸ List.mem_append_right _ hs)
    change (do
      let g ← f.build ctx found
      let a ← x.build ctx found
      return g a) = Except.ok (g a)
    rw [hg, ha]
    rfl

theorem GivesIn.map {x : Form α} (h : GivesIn ctx x members a) (f : α → β) :
    GivesIn ctx (f <$> x) members (f a) :=
  (pure_givesIn f).seq h

theorem check_ok (h : r ctx d = .ok a) : ((r ctx d).map fun _ => ()) = .ok () := by
  rw [h]
  rfl

theorem required_givesIn (hd : members.lookup (some name) = some d) (h : r ctx d = .ok a) :
    GivesIn ctx (required name r) members a := by
  refine ⟨?_, ?_, ?_⟩
  · intro s hs
    rw [List.mem_singleton.mp hs]
  · intro s hs e he
    rw [List.mem_singleton.mp hs] at he ⊢
    obtain rfl := Option.some.inj (hd.symm.trans he)
    exact check_ok h
  · intro found hfound
    have hfind : found.lookup name = some d := (hfound _ (List.mem_singleton.mpr rfl)).trans hd
    simp only [required, hfind]
    exact h

theorem defaulted_givesIn (absent : α) (hd : members.lookup (some name) = some d) (h : r ctx d = .ok a) :
    GivesIn ctx (defaulted name r absent) members a := by
  refine ⟨?_, ?_, ?_⟩
  · intro s hs
    rw [List.mem_singleton.mp hs]
  · intro s hs e he
    rw [List.mem_singleton.mp hs] at he ⊢
    obtain rfl := Option.some.inj (hd.symm.trans he)
    exact check_ok h
  · intro found hfound
    have hfind : found.lookup name = some d := (hfound _ (List.mem_singleton.mpr rfl)).trans hd
    simp only [defaulted, defaultedAs, hfind]
    exact h

theorem absent_givesIn {absent : α} (hd : members.lookup (some name) = none) :
    GivesIn ctx (defaulted name r absent) members absent := by
  refine ⟨?_, ?_, ?_⟩
  · intro s hs
    rw [List.mem_singleton.mp hs]
  · intro s hs e he
    rw [List.mem_singleton.mp hs] at he
    cases hd.symm.trans he
  · intro found hfound
    have hfind : found.lookup name = none := (hfound _ (List.mem_singleton.mpr rfl)).trans hd
    simp only [defaulted, defaultedAs, hfind]

/-- A member that may be missing is given in a context as it was left out or written. -/
theorem optional_givesIn {write : α → Json} {x : Option α}
    (hd : members.lookup (some name) = x.map fun a => printed (write a))
    (h : ∀ a, x = some a → r ctx (printed (write a)) = .ok a ∧ printed (write a) ≠ .null) :
    GivesIn ctx (optional name r) members x := by
  cases x with
  | none => exact absent_givesIn hd
  | some a =>
    obtain ⟨hread, hnull⟩ := h a rfl
    exact defaulted_givesIn _ hd (Reader.optional_in hread hnull)

theorem Gives.seq {f : Form (α → β)} {x : Form α} {g : α → β} (hf : f.Gives members g)
    (hx : x.Gives members a) : (f <*> x).Gives members (g a) :=
  GivesIn.gives fun room => (hf.inAside room).seq (hx.inAside room)

theorem Gives.map {x : Form α} (h : x.Gives members a) (f : α → β) : (f <$> x).Gives members (f a) :=
  GivesIn.gives fun room => (h.inAside room).map f

theorem required_gives (hd : members.lookup (some name) = some d) (h : r.Gives d a) :
    (required name r).Gives members a :=
  GivesIn.gives fun room => required_givesIn hd (h room)

theorem defaulted_gives (absent : α) (hd : members.lookup (some name) = some d) (h : r.Gives d a) :
    (defaulted name r absent).Gives members a :=
  GivesIn.gives fun room => defaulted_givesIn absent hd (h room)

theorem defaulted_absent {absent : α} (hd : members.lookup (some name) = none) :
    (defaulted name r absent).Gives members absent :=
  GivesIn.gives fun _ => absent_givesIn hd

/-- A member that may be missing is given as it was left out or written. -/
theorem optional_gives {write : α → Json} {x : Option α}
    (hd : members.lookup (some name) = x.map fun a => printed (write a))
    (h : ∀ a, x = some a → r.Gives (printed (write a)) a ∧ printed (write a) ≠ .null) :
    (optional name r).Gives members x :=
  GivesIn.gives fun room => optional_givesIn hd fun a ha => ⟨(h a ha).1 room, (h a ha).2⟩

/-- A payload that may be missing is given as it was, but null is given as none. -/
theorem payload_gives {x : Option Json} (hd : members.lookup (some name) = x.map printed)
    (hx : ∀ v, x = some v → v.Proper ∧ v.depth ≤ depthLimit) :
    (optional name .any).Gives members (x.filter (· ≠ .null)) := by
  cases x with
  | none => exact defaulted_absent hd
  | some v =>
    by_cases hnull : v = .null
    · subst hnull
      exact defaulted_gives _ hd (Reader.optional_null .any)
    · obtain ⟨hv, hdepth⟩ := hx v rfl
      have hprinted : printed v ≠ .null := by
        intro h
        have hvalue := value?_printed v depthLimit hv hdepth
        rw [h] at hvalue
        exact hnull (Option.some.inj hvalue).symm
      rw [Option.filter_some, if_pos (by simpa using hnull)]
      exact defaulted_gives _ hd (Reader.optional_gives (Reader.any_gives hv hdepth) hprinted)

/-! ### Whole records -/

/-- Every member is taken up, or passed over if it belongs to no slot. -/
theorem collect_givesIn (slots : List Slot) (hn : Named members) (hplain : ∀ s ∈ slots, s.others = [])
    (hchecks : ∀ s ∈ slots, ∀ d, members.lookup (some s.name) = some d → s.check ctx d = .ok ())
    (hskip : ∀ m ∈ members, (∀ s ∈ slots, m.1 ≠ some s.name) → m.2.skip ctx = .ok ()) :
    ∃ found, collect slots ctx members [] = .ok found := by
  suffices h : ∀ acc : List (String × Document), (∀ k, some k ∈ members.map Prod.fst → acc.lookup k = none) →
      ∃ found, collect slots ctx members acc = .ok found from h [] fun _ _ => rfl
  induction members with
  | nil => exact fun acc _ => ⟨acc, rfl⟩
  | cons m members ih =>
    intro acc hacc
    obtain ⟨k, d⟩ := m
    have hdistinct := List.nodup_cons.mp (List.map_cons ▸ hn.distinct)
    have hrest : Named members :=
      ⟨fun m hm => hn.named m (List.mem_cons_of_mem _ hm), hdistinct.2⟩
    have hskip' := fun m hm => hskip m (List.mem_cons_of_mem _ hm)
    cases k with
    | none => exact absurd rfl (hn.named _ List.mem_cons_self)
    | some k =>
      have hchecks' : ∀ s ∈ slots, ∀ e, members.lookup (some s.name) = some e → s.check ctx e = .ok () := by
        intro s hs e he
        refine hchecks s hs e ?_
        rw [lookup_cons_if, if_neg, he]
        intro hk
        obtain ⟨before, after, rfl, _⟩ := List.lookup_eq_some_iff.mp he
        exact hdistinct.1 (by simp [← hk])
      have hothers : ∀ l, some l ∈ members.map Prod.fst → acc.lookup l = none ∧ l ≠ k := by
        intro l hl
        refine ⟨hacc l (List.mem_cons_of_mem _ hl), ?_⟩
        rintro rfl
        exact hdistinct.1 hl
      unfold collect
      split
      · rename_i hfind
        have hunknown : ∀ s ∈ slots, (some k, d).1 ≠ some s.name := by
          intro s hs hk
          have hno := List.find?_eq_none.mp hfind s hs
          exact hno (by simp [Option.some.inj hk])
        have hpassed : inside (.name k) (d.skip ctx) = .ok () := by
          rw [hskip _ List.mem_cons_self hunknown]
          rfl
        rw [hpassed]
        exact ih hrest hchecks' hskip' acc fun l hl => (hothers l hl).1
      · rename_i s hfind
        have hmem := List.mem_of_find?_eq_some hfind
        have hk : s.name = k := by
          have hname := List.find?_some hfind
          simpa [hplain s hmem] using hname
        have hnew : acc.lookup s.name = none := hacc s.name (by simp [hk])
        have hcheck : s.check ctx d = .ok () :=
          hchecks s hmem d (by rw [lookup_cons_if, hk, if_pos rfl])
        rw [if_neg (by simp [hnew]), hcheck]
        refine ih hrest hchecks' hskip' _ fun l hl => ?_
        rw [List.lookup_append, (hothers l hl).1, lookup_cons_if, if_neg (hk ▸ (hothers l hl).2)]
        rfl

/-- A record is given in a context that may be entered, by what stands under the names of a form. -/
theorem GivesIn.reader {inner : Context} (h : GivesIn inner form members a) (hn : Named members)
    (hroom : ctx.enter = .ok inner)
    (hskip : ∀ m ∈ members, (∀ s ∈ form.slots, m.1 ≠ some s.name) → m.2.skip inner = .ok ()) :
    form.reader title ctx (.record members) = .ok a := by
  obtain ⟨found, hfound⟩ := collect_givesIn form.slots hn h.plain h.checks hskip
  have hlookup : ∀ s ∈ form.slots, found.lookup s.name = members.lookup (some s.name) := by
    intro s hs
    rw [collect_lookup hfound h.plain ⟨s, hs, rfl⟩]
    rfl
  simp only [Form.reader, hroom, bind, Except.bind, hfound, h.build found hlookup]

/-- A printed object is given where it may be entered, by a form that has a slot for each of its names. -/
theorem reader_object {inner : Context} {ms : List (String × Json)} (hroom : ctx.enter = .ok inner)
    (hknown : (ms.all fun m => form.slots.any fun s => s.name == m.1) = true)
    (h : ∀ members, (∀ n, members.lookup (some n) = (ms.reverse.lookup n).map printed) →
      GivesIn inner form members a) :
    form.reader title ctx (printed (object ms)) = .ok a := by
  obtain ⟨members, hprinted, hn, hlookup⟩ := printed_object ms
  rw [hprinted]
  refine (h members hlookup).reader hn hroom fun m hm hno => ?_
  obtain ⟨k, hk⟩ := Option.ne_none_iff_exists'.mp (hn.named m hm)
  have hfound : (members.lookup (some k)).isSome := by
    rw [List.lookup_isSome_iff]
    exact ⟨m, hm, by simp [hk]⟩
  rw [hlookup, Option.isSome_map, List.lookup_isSome_iff] at hfound
  obtain ⟨x, hx, hname⟩ := hfound
  obtain ⟨s, hs, hslot⟩ := List.any_eq_true.mp (List.all_eq_true.mp hknown x (List.mem_reverse.mp hx))
  exact absurd (hk.trans (by rw [eq_of_beq hslot, eq_of_beq hname])) (hno s hs)

/-- A record is given by what stands under the names of a form. -/
theorem Gives.reader (h : form.Gives members a) (hn : Named members) :
    (form.reader title).Gives (.record members) a := fun room =>
  (h.inAside (room - 1)).reader hn rfl fun _ _ _ => rfl

end Form

/-! ### Tagged records -/

namespace Reader

variable {tag k : String} {choices : List (String × α)} {ctx : Context}
  {members acc : List (Option String × Document)} {a : α}

/-- Without a tag all members are set aside. -/
theorem untag_rest (hn : ∀ m ∈ members, m.1 ≠ none) (htag : ∀ m ∈ members, m.1 ≠ some tag)
    (hwhole : ∀ m ∈ members, ∃ w, m.2.whole ctx = .ok w) :
    untag tag choices ctx members (some a) acc = .ok (a, acc ++ members) := by
  induction members generalizing acc with
  | nil => rw [untag, List.append_nil]
  | cons m members ih =>
    obtain ⟨l, d⟩ := m
    rw [List.forall_mem_cons] at hn htag hwhole
    cases l with
    | none => exact absurd rfl hn.1
    | some l =>
      obtain ⟨w, hw⟩ := hwhole.1
      have hl : l ≠ tag := fun h => htag.1 (congrArg some h)
      rw [untag, if_neg hl, hw]
      exact (ih hn.2 htag.2 hwhole.2).trans (by simp)

theorem untag_gives (acc : List (Option String × Document)) (hn : Named members) (hk : choices.lookup k = some a)
    (htag : members.lookup (some tag) = some (.text (some k)))
    (hwhole : ∀ m ∈ members, m.1 ≠ some tag → ∃ w, m.2.whole ctx = .ok w) :
    untag tag choices ctx members none acc =
      .ok (a, acc ++ members.filter fun m => m.1 ≠ some tag) := by
  induction members generalizing acc with
  | nil => cases htag
  | cons m members ih =>
    obtain ⟨l, d⟩ := m
    have hdistinct := List.nodup_cons.mp (List.map_cons ▸ hn.distinct)
    have hrest : Named members :=
      ⟨fun m hm => hn.named m (List.mem_cons_of_mem _ hm), hdistinct.2⟩
    rw [List.forall_mem_cons] at hwhole
    cases l with
    | none => exact absurd rfl (hn.named _ List.mem_cons_self)
    | some l =>
      rw [lookup_cons_if] at htag
      by_cases hl : l = tag
      · subst hl
        rw [if_pos rfl] at htag
        cases htag
        have hothers : ∀ m ∈ members, m.1 ≠ some l := by
          intro m hm heq
          exact hdistinct.1 (List.mem_map.mpr ⟨m, hm, heq⟩)
        have htagOf : untag.tagOf choices ctx (.text (some k)) = .ok a := by
          simp only [untag.tagOf, named, hk]
        have hfilter : members.filter (fun m => decide (m.1 ≠ some l)) = members :=
          List.filter_eq_self.mpr fun m hm => by simpa using hothers m hm
        rw [untag, if_pos rfl, htagOf, List.filter_cons_of_neg (by simp), hfilter]
        exact untag_rest hrest.named hothers fun m hm => hwhole.2 m hm (hothers m hm)
      · have hl' : some l ≠ some tag := fun h => hl (Option.some.inj h)
        obtain ⟨w, hw⟩ := hwhole.1 hl'
        rw [if_neg hl'.symm] at htag
        rw [untag, if_neg hl, hw, List.filter_cons_of_pos (by simpa using hl)]
        exact (ih _ hrest htag hwhole.2).trans (by simp)

variable {ms : List (String × Json)} {r : Reader α}
  {variants : List (String × Reader α)}

/-- A printed record is read as its tag says, from its other members. -/
theorem tagged_gives (source : Source) (title : String) (hproper : ∀ m ∈ ms, m.2.Proper)
    (hdepth : (object ms).depth ≤ depthLimit)
    (htag : ms.reverse.lookup tag = some (.str k)) (hk : variants.lookup k = some r)
    (h : ∀ rest, Named rest → (∀ n, n ≠ tag → rest.lookup (some n) = (ms.reverse.lookup n).map printed) →
      r.Gives (.record rest) a) :
    tagged title tag variants ⟨source, depthLimit⟩ (printed (object ms)) = .ok a := by
  have hlookup (n : String) :
      (printedMembers (ordered ms)).lookup (some n) = (ms.reverse.lookup n).map printed := by
    rw [lookup_printedMembers, lookup_ordered]
  have hnamed := named_printedMembers (sorted_ordered ms)
  have hwhole : ∀ m ∈ printedMembers (ordered ms), m.1 ≠ some tag →
      ∃ w, m.2.whole ⟨source, depthLimit - 1⟩ = .ok w := by
    intro m hm _
    obtain ⟨e, he, rfl⟩ : ∃ e ∈ ordered ms, (some e.1, printed e.2) = m := by
      generalize ordered ms = es at hm
      induction es with
      | nil => cases hm
      | cons e es ih =>
        rcases List.mem_cons.mp hm with rfl | hm
        · exact ⟨e, List.mem_cons_self, rfl⟩
        · obtain ⟨e', he', rfl⟩ := ih hm
          exact ⟨e', List.mem_cons_of_mem e he', rfl⟩
    have hlt : e.2.depth < (object ms).depth := depth_lt_of_ordered he
    exact ⟨e.2, whole_printed (hproper e (mem_ordered he)) (by dsimp only; omega) (by omega)⟩
  have huntag := untag_gives [] hnamed hk ((hlookup tag).trans (by rw [htag]; rfl)) hwhole
  have henter : Context.enter ⟨source, depthLimit⟩ = .ok ⟨source, depthLimit - 1⟩ :=
    if_neg fun h => (show depthLimit ≠ 0 by decide) h.2
  rw [object_eq, printed]
  simp only [tagged, henter, bind, Except.bind, huntag, List.nil_append]
  refine h _ (hnamed.filter _) (fun n hn => ?_) _
  rw [lookup_others hn, hlookup]

end Reader

end Fleet.Json
