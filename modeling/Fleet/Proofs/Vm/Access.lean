import Fleet.Vm.Scheduler
import Mathlib.Data.List.Nodup
import Mathlib.Data.List.Pairwise

/-!
What each access does to a store that keeps rows as they arrive and never fails. A row is written in
the place of the one that bears its id, and ids are not repeated.
-/

namespace Fleet.Vm

namespace Work

variable {α β : Type}

theorem bind_apply (x : Work α) (f : α → Work β) (w : World) :
    (x >>= f) w = match x w with
      | (.ok a, v) => f a v
      | (.error e, v) => (.error e, v) := by
  change StateT.bind x (ExceptT.bindCont f) w = _
  unfold StateT.bind
  rcases x w with ⟨r, v⟩
  cases r <;> rfl

theorem throw_apply (e : Error) (w : World) : (throw e : Work α) w = (.error e, w) := rfl

/-- Work goes on with what the first part gives. -/
theorem bind_of_ok {x : Work α} {f : α → Work β} {w v : World} {a : α} (h : x w = (.ok a, v)) :
    (x >>= f) w = f a v := by rw [bind_apply, h]

theorem bind_of_error {x : Work α} {f : α → Work β} {w v : World} {e : Error}
    (h : x w = (.error e, v)) : (x >>= f) w = (.error e, v) := by rw [bind_apply, h]

theorem access_apply {f : Store → Except Error (α × Store)} {w : World} (h : w.faults = []) :
    access f w = match f w.store with
      | .error e => (.error e, w)
      | .ok (a, s) => (.ok a, { w with store := s }) := by
  obtain ⟨s, l, fs⟩ := w
  cases h
  rfl

end Work

namespace World

def ids (w : World) : List String := w.store.rows.map Row.id

def live? (w : World) (user : String) : Option Row := (w.store.latest? user).filter Row.isLive

/-- Writes a row in the place of the one with its id. -/
def put (w : World) (r : Row) : World :=
  { w with store := { w.store with rows := w.store.rows.map fun q => if q.id = r.id then r else q } }

def add (w : World) (r : Row) : World :=
  { w with store := { w.store with rows := w.store.rows ++ [r] } }

def launching (w : World) (l : Launch) : World := { w with launches := w.launches ++ [l] }

/-- Rows are kept as they arrive, no id twice, and no access fails. -/
structure Calm (w : World) : Prop where
  arrival : w.store.keeping = .arrival
  faultless : w.faults = []
  distinct : w.ids.Nodup

@[simp] theorem put_launches (w : World) (r : Row) : (w.put r).launches = w.launches := rfl

@[simp] theorem add_launches (w : World) (r : Row) : (w.add r).launches = w.launches := rfl

@[simp] theorem launching_store (w : World) (l : Launch) : (w.launching l).store = w.store := rfl

@[simp] theorem launching_launches (w : World) (l : Launch) :
    (w.launching l).launches = w.launches ++ [l] := rfl

@[simp] theorem add_rows (w : World) (r : Row) : (w.add r).store.rows = w.store.rows ++ [r] := rfl

@[simp] theorem put_rows (w : World) (r : Row) :
    (w.put r).store.rows = w.store.rows.map fun q => if q.id = r.id then r else q := rfl

@[simp] theorem put_ids (w : World) (r : Row) : (w.put r).ids = w.ids := by
  simp only [ids, put_rows, List.map_map]
  apply List.map_congr_left
  intro q _
  simp only [Function.comp_apply]
  split
  · rename_i h; exact h.symm
  · rfl

@[simp] theorem add_ids (w : World) (r : Row) : (w.add r).ids = w.ids ++ [r.id] := by simp [ids]

/-- Rows of a world after a row was written: the new row, or one from before with another id. -/
theorem mem_put {w : World} {q r' : Row} (hq : q ∈ (w.put r').store.rows) :
    q = r' ∨ q ∈ w.store.rows ∧ q.id ≠ r'.id := by
  obtain ⟨a, ha, rfl⟩ := List.mem_map.mp hq
  by_cases h : a.id = r'.id
  · simp [h]
  · simp [h, ha]

theorem put_put (w : World) {r r' : Row} (h : r.id = r'.id) : (w.put r).put r' = w.put r' := by
  simp only [put, List.map_map]
  congr 2
  apply List.map_congr_left
  intro q _
  simp only [Function.comp_apply]
  by_cases hq : q.id = r.id
  · simp [hq, h]
  · simp [hq, h ▸ hq]

/-- Writing a row where no row has its id changes nothing. -/
theorem map_of_fresh {rows : List Row} {r : Row} (hf : r.id ∉ rows.map Row.id) :
    rows.map (fun q => if q.id = r.id then r else q) = rows := by
  apply (List.map_congr_left ?_).trans (List.map_id rows)
  intro q hq
  have hne : q.id ≠ r.id := fun h => hf (List.mem_map.mpr ⟨q, hq, h⟩)
  simp [hne]

theorem add_put (w : World) {r r' : Row} (h : r.id = r'.id) (hf : r'.id ∉ w.ids) :
    (w.add r).put r' = w.add r' := by
  simp [put, add, h, map_of_fresh hf]

/-- Where ids are not repeated, a row is the only one with its id. -/
theorem Calm.eq_of_id {w : World} (hc : w.Calm) {q r : Row} (hq : q ∈ w.store.rows)
    (hr : r ∈ w.store.rows) (h : q.id = r.id) : q = r :=
  List.inj_on_of_nodup_map hc.distinct hq hr h

theorem Calm.put_self {w : World} (hc : w.Calm) {r : Row} (hr : r ∈ w.store.rows) :
    w.put r = w := by
  have hrows : w.store.rows.map (fun q => if q.id = r.id then r else q) = w.store.rows := by
    apply (List.map_congr_left ?_).trans (List.map_id _)
    intro q hq
    by_cases h : q.id = r.id
    · simp [hc.eq_of_id hq hr h]
    · simp [h]
  simp [put, hrows]

theorem Calm.put {w : World} (hc : w.Calm) (r : Row) : (w.put r).Calm :=
  ⟨hc.arrival, hc.faultless, by simpa using hc.distinct⟩

theorem Calm.add {w : World} (hc : w.Calm) {r : Row} (hf : r.id ∉ w.ids) : (w.add r).Calm := by
  refine ⟨hc.arrival, hc.faultless, ?_⟩
  rw [add_ids]
  exact List.nodup_append.mpr ⟨hc.distinct, by simp, by
    intro a ha b hb hab
    rw [List.mem_singleton] at hb
    exact hf (hb ▸ hab ▸ ha)⟩

theorem Calm.launching {w : World} (hc : w.Calm) (l : Launch) : (w.launching l).Calm :=
  ⟨hc.arrival, hc.faultless, hc.distinct⟩

/-! ### The rows of one user -/

theorem Calm.listing {w : World} (hc : w.Calm) : w.store.listing = w.store.rows := by
  simp [Store.listing, hc.arrival]

theorem Calm.history {w : World} (hc : w.Calm) (user : String) :
    w.store.history user = w.store.rows.filter (Store.ofUser user) := by
  rw [Store.history, hc.listing]

theorem Calm.mem_of_latest? {w : World} (hc : w.Calm) {user : String} {r : Row}
    (h : w.store.latest? user = some r) : r ∈ w.store.rows ∧ r.userId = user := by
  have hm := List.mem_of_getLast? h
  rw [hc.history, List.mem_filter] at hm
  exact ⟨hm.1, by simpa [Store.ofUser] using hm.2⟩

theorem latest?_of_live? {w : World} {user : String} {r : Row} (h : w.live? user = some r) :
    w.store.latest? user = some r ∧ r.isLive = true :=
  Option.filter_eq_some_iff.mp h

/-- Rows that are read as a user's are that user's. -/
theorem userId_of_latest? {w : World} {user : String} {r : Row}
    (h : w.store.latest? user = some r) : r.userId = user := by
  simpa [Store.ofUser] using (List.mem_filter.mp (List.mem_of_getLast? h)).2

theorem userId_of_live? {w : World} {user : String} {r : Row} (h : w.live? user = some r) :
    r.userId = user :=
  userId_of_latest? (latest?_of_live? h).1

theorem Calm.mem_of_live? {w : World} (hc : w.Calm) {user : String} {r : Row}
    (h : w.live? user = some r) : r ∈ w.store.rows ∧ r.userId = user :=
  hc.mem_of_latest? (latest?_of_live? h).1

theorem Calm.id_of_live? {w : World} (hc : w.Calm) {user : String} {r : Row}
    (h : w.live? user = some r) : r.id ∈ w.ids :=
  List.mem_map.mpr ⟨r, (hc.mem_of_live? h).1, rfl⟩

/-- A row that keeps its user stands in the user's history where the one before it stood. -/
theorem Calm.history_put {w : World} (hc : w.Calm) {r r' : Row} (hr : r ∈ w.store.rows)
    (hid : r'.id = r.id) (hu : r'.userId = r.userId) (user : String) :
    (w.put r').store.history user =
      (w.store.history user).map fun q => if q.id = r'.id then r' else q := by
  rw [(hc.put r').history, hc.history, put_rows, List.filter_map]
  congr 1
  apply List.filter_congr
  intro q hq
  simp only [Function.comp_apply, Store.ofUser]
  split
  · rename_i h
    rw [hc.eq_of_id hq hr (h.trans hid), hu]
  · rfl

/-- Writing a row of one user changes nothing for another. -/
theorem Calm.history_put_ne {w : World} (hc : w.Calm) {r r' : Row} (hr : r ∈ w.store.rows)
    (hid : r'.id = r.id) (hu : r'.userId = r.userId) {user : String} (hne : r.userId ≠ user) :
    (w.put r').store.history user = w.store.history user := by
  rw [hc.history_put hr hid hu]
  apply (List.map_congr_left ?_).trans (List.map_id _)
  intro q hq
  rw [hc.history, List.mem_filter] at hq
  have hother : q.id ≠ r'.id := by
    intro h
    rw [hc.eq_of_id hq.1 hr (h.trans hid)] at hq
    exact hne (by simpa [Store.ofUser] using hq.2)
  simp [hother]

theorem Calm.latest?_put {w : World} (hc : w.Calm) {user : String} {r r' : Row}
    (h : w.store.latest? user = some r) (hid : r'.id = r.id) (hu : r'.userId = r.userId) :
    (w.put r').store.latest? user = some r' := by
  have hm := (hc.mem_of_latest? h).1
  rw [Store.latest?, hc.history_put hm hid hu, List.getLast?_map]
  rw [Store.latest?] at h
  simp [h, hid]

theorem Calm.live?_put {w : World} (hc : w.Calm) {user : String} {r r' : Row}
    (h : w.live? user = some r) (hid : r'.id = r.id) (hu : r'.userId = r.userId)
    (hl : r'.isLive = true) : (w.put r').live? user = some r' := by
  rw [live?, hc.latest?_put (latest?_of_live? h).1 hid hu]
  simp [hl]

end World

/-! ### Accesses -/

namespace Store

theorem replace_eq {rows : List Row} {r : Row} (hn : (rows.map Row.id).Nodup)
    (hr : r.id ∈ rows.map Row.id) :
    replace r rows = some (rows.map fun q => if q.id = r.id then r else q) := by
  induction rows with
  | nil => simp at hr
  | cons q rest ih =>
    rw [List.map_cons, List.nodup_cons] at hn
    by_cases h : q.id = r.id
    · simp only [replace, h, ↓reduceIte, List.map_cons]
      rw [World.map_of_fresh (h ▸ hn.1)]
    · have hr' : r.id ∈ rest.map Row.id := by
        rcases List.mem_cons.mp (List.map_cons ▸ hr) with he | hm
        · exact absurd he.symm h
        · exact hm
      simp [replace, h, ih hn.2 hr']

theorem find?_isSome {s : Store} {id : String} (h : id ∈ s.rows.map Row.id) :
    ∃ r, s.find? id = some r := by
  obtain ⟨r, hr, he⟩ := List.mem_map.mp h
  have := List.find?_isSome (p := fun r : Row => r.id == id).mpr ⟨r, hr, by simp [he]⟩
  exact Option.isSome_iff_exists.mp this

end Store

namespace Work

open World

variable {w : World}

theorem latest?_apply (hc : w.Calm) (user : String) :
    latest? user w = (.ok (w.store.latest? user), w) := by
  rw [latest?, access_apply hc.faultless]

theorem live?_apply (hc : w.Calm) (user : String) : live? user w = (.ok (w.live? user), w) := by
  rw [live?, bind_of_ok (latest?_apply hc user)]
  rfl

theorem byStatus_apply (hc : w.Calm) (status : Status) :
    byStatus status w = (.ok (w.store.byStatus status), w) := by
  rw [byStatus, access_apply hc.faultless]

theorem record_apply (w : World) (l : Launch) : record l w = (.ok (), w.launching l) := rfl

theorem update_apply (hc : w.Calm) {r : Row} (hr : r.id ∈ w.ids) :
    update r w = (.ok (), w.put r) := by
  obtain ⟨old, hold⟩ := Store.find?_isSome hr
  have hs : w.store.update r = .ok { w.store with
      rows := w.store.rows.map fun q => if q.id = r.id then r else q } := by
    simp [Store.update, hold, hc.arrival, Store.replace_eq hc.distinct hr]
  rw [update, access_apply hc.faultless]
  simp only [hs]
  rfl

theorem insert_apply (hc : w.Calm) {r : Row} (hl : Store.hasLive w.store.rows r.userId = false) :
    insert r w = (.ok (), w.add r) := by
  have hs : w.store.insert r = .ok { w.store with rows := w.store.rows ++ [r] } := by
    simp [Store.insert, hc.arrival, hl]
  rw [insert, access_apply hc.faultless]
  simp only [hs]
  rfl

end Work

end Fleet.Vm
