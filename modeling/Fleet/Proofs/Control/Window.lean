import Fleet.Control.Resume
import Mathlib.Data.Finset.Card
import Mathlib.Data.List.Dedup
import Mathlib.Data.List.TakeWhile

/-!
The cache of outcomes as a window on all that was recorded. Each pair of a user and a call counts with
its last record; of these the cache holds the newest, as many as there is room for, and what is no
longer held was pushed out or has reached its age.
-/

namespace Fleet.Control

/-- What an outcome is kept under. -/
def Kept.key (k : Kept) : String × String := (k.userId, k.call.id)

namespace Resume

/-- One use of the cache. -/
inductive Use where
  | record (userId : String) (call : Call) (outcome : Except Fault Json)
  | get (userId id : String)
  | resolve (userId : String) (ids : List String)

def use (c : Resume) (now : Nat) : Use → Resume
  | .record userId call outcome => c.record now userId call outcome
  | .get userId id => (c.get now userId id).2
  | .resolve userId ids => (c.resolve now userId ids).2

/-- Uses of the cache, each at its time. -/
def play (c : Resume) (uses : List (Nat × Use)) : Resume := uses.foldl (fun c x => c.use x.1 x.2) c

/-- What a use records. -/
def recorded? : Nat × Use → Option Kept
  | (now, .record userId call outcome) => some ⟨userId, call, now, outcome⟩
  | _ => none

/-- All that was recorded, oldest first. -/
def recorded (uses : List (Nat × Use)) : List Kept := uses.filterMap recorded?

/-- The records that no later one has the pair of, oldest first. -/
def latest : List Kept → List Kept
  | [] => []
  | k :: rest => if k.key ∈ rest.map Kept.key then latest rest else k :: latest rest

variable {log before after held : List Kept} {k : Kept}

/-! ### The last record of each pair -/

theorem keys_latest (log : List Kept) : (latest log).map Kept.key = (log.map Kept.key).dedup := by
  induction log with
  | nil => rfl
  | cons k rest ih =>
    unfold latest
    split
    · rename_i hk
      rw [ih, List.map_cons, List.dedup_cons_of_mem hk]
    · rename_i hk
      rw [List.map_cons, ih, List.map_cons, List.dedup_cons_of_notMem hk]

theorem latest_sublist (log : List Kept) : (latest log).Sublist log := by
  induction log with
  | nil => exact .slnil
  | cons k rest ih =>
    unfold latest
    split
    · exact ih.cons k
    · exact ih.cons_cons k

theorem latest_append_one (log : List Kept) (new : Kept) :
    latest (log ++ [new]) = (latest log).filter (fun k => k.key ≠ new.key) ++ [new] := by
  induction log with
  | nil => rfl
  | cons k rest ih =>
    rw [List.cons_append]
    unfold latest
    by_cases hrest : k.key ∈ rest.map Kept.key
    · rw [if_pos (by simp [List.map_append, hrest]), if_pos hrest, ih]
    · by_cases hnew : k.key = new.key
      · rw [if_pos (by simp [hnew]), if_neg hrest, ih, List.filter_cons_of_neg (by simpa using hnew)]
      · rw [if_neg (by simpa [hnew] using hrest), if_neg hrest, ih,
          List.filter_cons_of_pos (by simpa using hnew), List.cons_append]

/-- The records that count after one that counts are those that count of the records after it. -/
theorem latest_split (before : List Kept) (hafter : ∀ j ∈ after, j.key ≠ k.key) :
    ∃ others, latest (before ++ k :: after) = others ++ k :: latest after := by
  induction before with
  | nil =>
    refine ⟨[], ?_⟩
    rw [List.nil_append, latest, if_neg]
    · rfl
    · intro hmem
      obtain ⟨j, hj, hkey⟩ := List.mem_map.mp hmem
      exact hafter j hj hkey
  | cons j before ih =>
    obtain ⟨others, hothers⟩ := ih
    rw [List.cons_append, latest]
    split
    · exact ⟨others, hothers⟩
    · exact ⟨j :: others, by rw [hothers, List.cons_append]⟩

theorem exists_split_of_mem_latest (h : k ∈ latest log) :
    ∃ before after, log = before ++ k :: after ∧ ∀ j ∈ after, j.key ≠ k.key := by
  induction log with
  | nil => cases h
  | cons j rest ih =>
    have inRest (hk : k ∈ latest rest) :
        ∃ before after, j :: rest = before ++ k :: after ∧ ∀ i ∈ after, i.key ≠ k.key := by
      obtain ⟨before, after, hsplit, hafter⟩ := ih hk
      exact ⟨j :: before, after, by rw [hsplit, List.cons_append], hafter⟩
    unfold latest at h
    split at h
    · exact inRest h
    · rename_i hnone
      rcases List.mem_cons.mp h with rfl | h
      · refine ⟨[], rest, rfl, fun i hi hkey => hnone ?_⟩
        exact List.mem_map.mpr ⟨i, hi, hkey⟩
      · exact inRest h

theorem nodup_keys_latest (log : List Kept) : ((latest log).map Kept.key).Nodup := by
  rw [keys_latest]
  exact List.nodup_dedup _

theorem length_latest (log : List Kept) :
    (latest log).length = (log.map Kept.key).toFinset.card := by
  rw [List.card_toFinset, ← keys_latest, List.length_map]

/-- What counts after a record is what counts of the records after it. -/
theorem eq_latest_after {front back : List Kept} (hafter : ∀ j ∈ after, j.key ≠ k.key)
    (h : latest (before ++ k :: after) = front ++ k :: back) : back = latest after := by
  obtain ⟨others, hothers⟩ := latest_split before hafter
  have hnodup := (nodup_keys_latest (before ++ k :: after)).of_map
  rw [hothers] at hnodup h
  have hapart : k ∉ others ∧ k ∉ latest after := by
    simpa using (List.nodup_cons.mp (List.nodup_middle.mp hnodup)).1
  exact ((List.append_cons_inj_of_notMem hapart.1 hapart.2).mp h).2.2.symm

/-! ### The window -/

/-- What the cache holds at a time, of all that was recorded until then. -/
structure Windowed (c : Resume) (log : List Kept) (now : Nat) : Prop where
  split : ∃ gone, latest log = gone ++ c.entries ∧
    (c.entries.length = c.room ∨ ∀ k ∈ gone, k.since + c.ttl ≤ now)
  bounded : c.entries.length ≤ c.room
  sorted : (log.map Kept.since).Pairwise (· ≤ ·)
  past : ∀ k ∈ log, k.since ≤ now

variable {c : Resume} {now moment : Nat}

theorem windowed_nil (ttl capacity now : Nat) : Windowed { ttl, capacity } [] now := by
  refine ⟨⟨[], rfl, .inr nofun⟩, Nat.zero_le _, ?_, nofun⟩
  exact List.Pairwise.nil

theorem Windowed.later (h : Windowed c log now) (hle : now ≤ moment) : Windowed c log moment := by
  obtain ⟨⟨gone, hsplit, hgone⟩, hbounded, hsorted, hpast⟩ := h
  refine ⟨⟨gone, hsplit, hgone.imp_right fun h k hk => (h k hk).trans hle⟩, hbounded, hsorted, ?_⟩
  exact fun k hk => (hpast k hk).trans hle

theorem Windowed.sorted_latest (h : Windowed c log now) :
    (latest log).Pairwise fun j k => j.since ≤ k.since :=
  (List.pairwise_map.mp h.sorted).sublist (latest_sublist log)

theorem Windowed.nodup_keys (h : Windowed c log now) : (c.entries.map Kept.key).Nodup := by
  obtain ⟨gone, hsplit, _⟩ := h.split
  have hnodup := nodup_keys_latest log
  rw [hsplit, List.map_append] at hnodup
  exact hnodup.of_append_right

/-- Whether an entry has reached its age. -/
def expired (c : Resume) (now : Nat) (k : Kept) : Bool := decide (k.since + c.ttl ≤ now)

@[simp]
theorem prune_ttl (c : Resume) (now : Nat) : (c.prune now).ttl = c.ttl := rfl

@[simp]
theorem prune_room (c : Resume) (now : Nat) : (c.prune now).room = c.room := rfl

theorem prune_eq (c : Resume) (now : Nat) :
    c.entries.takeWhile (c.expired now) ++ (c.prune now).entries = c.entries :=
  List.takeWhile_append_dropWhile

/-- The entries that have reached their age are the oldest of all. -/
theorem Windowed.prune (h : Windowed c log now) : Windowed (c.prune now) log now := by
  obtain ⟨gone, hsplit, hgone⟩ := h.split
  have hparts := c.prune_eq now
  have hlength : (c.prune now).entries.length ≤ c.entries.length := by
    rw [← hparts, List.length_append]
    omega
  refine ⟨⟨gone ++ c.entries.takeWhile (c.expired now), ?_, ?_⟩, hlength.trans h.bounded, h.sorted,
    h.past⟩
  · rw [hsplit, List.append_assoc, hparts]
  · cases hold : c.entries.takeWhile (c.expired now) with
    | nil =>
      rw [hold, List.nil_append] at hparts
      rw [hparts, List.append_nil]
      exact hgone
    | cons first old =>
      right
      have hsorted := h.sorted_latest
      rw [hsplit, ← hparts, hold] at hsorted
      have hexpired : ∀ k ∈ first :: old, k.since + c.ttl ≤ now := by
        intro k hk
        rw [← hold] at hk
        simpa [expired] using List.mem_takeWhile_imp hk
      intro k hk
      rw [prune_ttl]
      rcases List.mem_append.mp hk with hk | hk
      · have hle : k.since ≤ first.since :=
          (List.pairwise_append.mp hsorted).2.2 k hk first (by simp)
        have hfirst := hexpired first List.mem_cons_self
        omega
      · exact hexpired k hk

/-- What is left after the old entries went is young. -/
theorem Windowed.young (h : Windowed c log now) :
    ∀ k ∈ (c.prune now).entries, now < k.since + c.ttl := by
  obtain ⟨gone, hsplit, _⟩ := h.prune.split
  have hsorted := h.sorted_latest
  rw [hsplit] at hsorted
  have hrest := (List.pairwise_append.mp hsorted).2.1
  cases hheld : (c.prune now).entries with
  | nil => exact nofun
  | cons first held =>
    have hfirst : now < first.since + c.ttl := by
      have hdrop : c.entries.dropWhile (c.expired now) = first :: held := hheld
      have hhead := List.head_dropWhile_not (c.expired now) (by rw [hdrop]; exact nofun)
      simpa [hdrop, expired] using hhead
    rw [hheld] at hrest
    intro k hk
    rcases List.mem_cons.mp hk with rfl | hk
    · exact hfirst
    · have hle := (List.pairwise_cons.mp hrest).1 k hk
      omega

/-! ### Uses keep the window -/

theorem isFor_iff {userId id : String} : k.isFor userId id = true ↔ k.key = (userId, id) := by
  simp [Kept.isFor, Kept.key]

/-- A pair stands once among the entries, so that one entry at most makes way for its new record. -/
theorem length_others {key : String × String} (hnodup : (held.map Kept.key).Nodup) :
    held.length ≤ (held.filter fun k => k.key ≠ key).length + 1 := by
  induction held with
  | nil => exact Nat.zero_le _
  | cons k held ih =>
    obtain ⟨hk, hheld⟩ := List.nodup_cons.mp hnodup
    by_cases hkey : k.key = key
    · have hothers : held.filter (fun j => j.key ≠ key) = held := by
        apply List.filter_eq_self.mpr
        intro j hj
        refine decide_eq_true fun hjkey => hk ?_
        rw [hkey, ← hjkey]
        exact List.mem_map_of_mem hj
      rw [List.filter_cons_of_neg (by simpa using hkey), hothers, List.length_cons]
    · rw [List.filter_cons_of_pos (by simpa using hkey), List.length_cons, List.length_cons]
      have := ih hheld
      omega

theorem Windowed.record {userId : String} {call : Call} {outcome : Except Fault Json}
    (h : Windowed c log now) :
    Windowed (c.record now userId call outcome) (log ++ [⟨userId, call, now, outcome⟩]) now := by
  obtain ⟨gone, hsplit, hgone⟩ := h.prune.split
  have hnodup := h.prune.nodup_keys
  have hroom : 0 < c.room := by unfold room; omega
  generalize hnew : (⟨userId, call, now, outcome⟩ : Kept) = new
  generalize hheld : (c.prune now).entries = held at hsplit hgone hnodup
  generalize hall : held.filter (fun k => k.key ≠ new.key) ++ [new] = all
  have hentries : (c.record now userId call outcome).entries = all.drop (all.length - c.room) := by
    have hfilter : held.filter (fun k => !k.isFor userId call.id) =
        held.filter fun k => k.key ≠ new.key := by
      apply List.filter_congr
      intro k _
      subst hnew
      rw [Bool.eq_iff_iff, Bool.not_eq_true', ← Bool.not_eq_true, isFor_iff, decide_eq_true_iff]
      rfl
    subst hall
    rw [← hfilter]
    subst hheld hnew
    rfl
  have hlength : (all.drop (all.length - c.room)).length = min all.length c.room := by
    rw [List.length_drop]
    omega
  have hothers : held.length ≤ all.length := by
    rw [← hall, List.length_append]
    exact length_others hnodup
  refine ⟨⟨gone.filter (fun k => k.key ≠ new.key) ++ all.take (all.length - c.room), ?_, ?_⟩,
    ?_, ?_, ?_⟩
  · rw [latest_append_one, hsplit, List.filter_append, List.append_assoc, hall, List.append_assoc,
      hentries, List.take_append_drop]
  · rw [hentries, hlength]
    by_cases hfull : c.room ≤ all.length
    · left
      exact Nat.min_eq_right hfull
    · -- with room to spare nothing was pushed out, before or now
      right
      rw [show all.length - c.room = 0 by omega, List.take_zero, List.append_nil]
      intro k hk
      refine hgone.resolve_left ?_ k (List.mem_of_mem_filter hk)
      rw [prune_room]
      omega
  · rw [hentries, hlength]
    exact Nat.min_le_right _ _
  · rw [List.map_append]
    refine List.pairwise_append.mpr ⟨h.sorted, List.pairwise_singleton _ _, ?_⟩
    intro since hsince last hlast
    obtain ⟨k, hk, rfl⟩ := List.mem_map.mp hsince
    subst hnew
    rw [List.mem_singleton.mp hlast]
    exact h.past k hk
  · intro k hk
    rcases List.mem_append.mp hk with hk | hk
    · exact h.past k hk
    · rw [List.mem_singleton.mp hk, ← hnew]

theorem Windowed.use (h : Windowed c log now) (u : Use) :
    Windowed (c.use now u) (log ++ (recorded? (now, u)).toList) now := by
  cases u with
  | record userId call outcome => exact h.record
  | get userId id =>
    simp only [recorded?, Option.toList_none, List.append_nil]
    exact h.prune
  | resolve userId ids =>
    simp only [recorded?, Option.toList_none, List.append_nil]
    exact h.prune

theorem Windowed.play {uses : List (Nat × Use)} (h : Windowed c log now)
    (htimes : (now :: (uses.map Prod.fst ++ [moment])).Pairwise (· ≤ ·)) :
    Windowed (c.play uses) (log ++ recorded uses) moment := by
  induction uses generalizing c log now with
  | nil =>
    rw [recorded, List.filterMap_nil, List.append_nil]
    exact h.later ((List.pairwise_cons.mp htimes).1 moment (by simp))
  | cons x uses ih =>
    obtain ⟨time, u⟩ := x
    obtain ⟨hnow, htimes⟩ := List.pairwise_cons.mp htimes
    have hthen := ((h.later (hnow time (by simp))).use u)
    have hrecorded : log ++ recorded ((time, u) :: uses) =
        log ++ (recorded? (time, u)).toList ++ recorded uses := by
      unfold recorded
      rw [List.filterMap_cons, List.append_assoc]
      cases recorded? (time, u) <;> rfl
    rw [hrecorded]
    exact ih hthen htimes

theorem use_ttl (c : Resume) (now : Nat) (u : Use) : (c.use now u).ttl = c.ttl := by
  cases u <;> rfl

theorem use_room (c : Resume) (now : Nat) (u : Use) : (c.use now u).room = c.room := by
  cases u <;> rfl

theorem play_ttl (c : Resume) (uses : List (Nat × Use)) : (c.play uses).ttl = c.ttl := by
  induction uses generalizing c with
  | nil => rfl
  | cons x uses ih => exact (ih _).trans (use_ttl c x.1 x.2)

theorem play_room (c : Resume) (uses : List (Nat × Use)) : (c.play uses).room = c.room := by
  induction uses generalizing c with
  | nil => rfl
  | cons x uses ih => exact (ih _).trans (use_room c x.1 x.2)

/-! ### What a lookup finds -/

/-- The record is the last one of its pair, it is young, and records of few other pairs follow it. -/
def Reachable (log : List Kept) (ttl room now : Nat) (k : Kept) : Prop :=
  ∃ before after, log = before ++ k :: after ∧ (∀ j ∈ after, j.key ≠ k.key) ∧
    now < k.since + ttl ∧ (after.map Kept.key).toFinset.card < room

theorem Windowed.mem_iff (h : Windowed c log now) :
    k ∈ (c.prune now).entries ↔ Reachable log c.ttl c.room now k := by
  obtain ⟨gone, hsplit, hgone⟩ := h.prune.split
  constructor
  · intro hk
    have hmem : k ∈ latest log := by
      rw [hsplit]
      exact List.mem_append_right _ hk
    obtain ⟨before, after, rfl, hafter⟩ := exists_split_of_mem_latest hmem
    refine ⟨before, after, rfl, hafter, h.young k hk, ?_⟩
    obtain ⟨older, newer, hheld⟩ := List.append_of_mem hk
    rw [hheld, ← List.append_assoc] at hsplit
    have hbounded := h.prune.bounded
    rw [hheld, List.length_append, List.length_cons, prune_room,
      eq_latest_after hafter hsplit, length_latest] at hbounded
    omega
  · rintro ⟨before, after, rfl, hafter, hyoung, hfew⟩
    obtain ⟨others, hothers⟩ := latest_split before hafter
    have hmem : k ∈ gone ++ (c.prune now).entries := by
      rw [← hsplit, hothers]
      exact List.mem_append_right _ List.mem_cons_self
    rcases List.mem_append.mp hmem with hk | hk
    · exfalso
      rcases hgone with hfull | hold
      · obtain ⟨older, newer, rfl⟩ := List.append_of_mem hk
        rw [List.append_assoc, List.cons_append] at hsplit
        rw [← length_latest, ← eq_latest_after hafter hsplit, List.length_append, hfull,
          prune_room] at hfew
        omega
      · have := hold k hk
        rw [prune_ttl] at this
        omega
    · exact hk

theorem find?_eq_some_iff {userId id : String} (hnodup : (c.entries.map Kept.key).Nodup) :
    c.find? userId id = some k ↔ k.key = (userId, id) ∧ k ∈ c.entries := by
  constructor
  · intro h
    exact ⟨isFor_iff.mp (List.find?_some h), List.mem_of_find?_eq_some h⟩
  · rintro ⟨hkey, hk⟩
    cases hfind : c.find? userId id with
    | none => exact absurd (isFor_iff.mpr hkey) (List.find?_eq_none.mp hfind k hk)
    | some j =>
      have hj := isFor_iff.mp (List.find?_some hfind)
      have hsame := List.inj_on_of_nodup_map hnodup (List.mem_of_find?_eq_some hfind) hk
      rw [hsame (hj.trans hkey.symm)]

theorem Windowed.get_iff (h : Windowed c log now) (userId id : String) (k : Kept) :
    (c.get now userId id).1 = some k ↔
      k.key = (userId, id) ∧ Reachable log c.ttl c.room now k := by
  rw [← h.mem_iff]
  exact find?_eq_some_iff h.prune.nodup_keys

/-- What is answered to one id asked for: the outcome of the record that can be reached, or that it
is lost. -/
def AnsweredFrom (log : List Kept) (ttl room now : Nat) (userId id : String) (r : Resumed) : Prop :=
  (∃ k, k.key = (userId, id) ∧ Reachable log ttl room now k ∧
    r = match k.outcome with
      | .ok result => ⟨id, .completed, some result, none⟩
      | .error fault => ⟨id, .completed, none, some fault⟩) ∨
  (¬∃ k, k.key = (userId, id) ∧ Reachable log ttl room now k) ∧ r = ⟨id, .lost, none, none⟩

theorem Windowed.resolve (h : Windowed c log now) (userId : String) (ids : List String) :
    List.Forall₂ (AnsweredFrom log c.ttl c.room now userId) ids (c.resolve now userId ids).1 := by
  rw [Resume.resolve, List.forall₂_map_right_iff, List.forall₂_same]
  intro id _
  cases hfind : (c.prune now).find? userId id with
  | some k =>
    obtain ⟨hkey, hreach⟩ := (h.get_iff userId id k).mp hfind
    refine .inl ⟨k, hkey, hreach, ?_⟩
    have hid : k.call.id = id := (Prod.mk.inj hkey).2
    rw [← hid]
    rfl
  | none =>
    refine .inr ⟨?_, rfl⟩
    rintro ⟨k, hk⟩
    cases hfind.symm.trans ((h.get_iff userId id k).mpr hk)

end Resume

end Fleet.Control
