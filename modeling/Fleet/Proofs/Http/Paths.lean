import Mathlib.Data.String.Basic
import Fleet.Http.Endpoint

/-!
The parts of a path. Bars stand between them, so a path that is put together of parts without bars is taken apart
into the same parts, and a session without a bar in its name is found where its path says.
-/

namespace Fleet.Http

open String (ofList utf8Len)

/-- The characters of the part that is being read stand before the rest. A bar ends the part, anything else belongs
to it. -/
theorem splitOnAux_bar (before part after : List Char) (done : List String) :
    (ofList (before ++ part ++ after)).splitOnAux "/" ⟨utf8Len before⟩ ⟨utf8Len (before ++ part)⟩ 0 done =
      done.reverse ++ (List.splitOnPPrepend (· == '/') after part.reverse).map ofList := by
  induction after generalizing before part done with
  | nil =>
    have hpart := String.extract_of_valid before part []
    have hend := (String.atEnd_of_valid (before ++ part) []).mpr rfl
    rw [← String.utf8Len_append] at hpart
    rw [String.splitOnAux, if_pos hend, hpart]
    simp
  | cons c after ih =>
    have hpart := String.extract_of_valid before part (c :: after)
    have hend := mt (String.atEnd_of_valid (before ++ part) (c :: after)).mp (List.cons_ne_nil c after)
    have hget := String.get_of_valid (before ++ part) (c :: after)
    have hnext := String.next_of_valid (before ++ part) c after
    rw [← String.utf8Len_append] at hpart
    rw [String.splitOnAux, if_neg hend, hget, show String.Pos.Raw.get "/" 0 = '/' from rfl, List.headD_cons]
    by_cases hc : c = '/'
    · subst hc
      -- The bar is one byte long, so the part ends one byte before the place behind the bar.
      have hback : (String.Pos.Raw.mk (utf8Len (before ++ part) + 1)).unoffsetBy ⟨1⟩ =
          ⟨utf8Len (before ++ part)⟩ := rfl
      have hlen : utf8Len (before ++ part ++ ['/']) = utf8Len (before ++ part) + 1 := by
        rw [String.utf8Len_append]
        rfl
      have hrest := ih (before ++ part ++ ['/']) [] (ofList part :: done)
      rw [List.append_nil, hlen, List.append_assoc, List.singleton_append] at hrest
      rw [if_pos (beq_self_eq_true _), hnext, show '/'.utf8Size = 1 from rfl]
      dsimp only
      rw [if_pos (by decide), show String.Pos.Raw.next "/" 0 = ⟨1⟩ from rfl, hback, hpart, hrest,
        List.splitOnPPrepend_cons_eq_if, if_pos (beq_self_eq_true _), List.splitOnP_eq_splitOnPPrepend]
      simp
    · have hstay : (String.Pos.Raw.mk (utf8Len (before ++ part))).unoffsetBy 0 =
          ⟨utf8Len (before ++ part)⟩ := rfl
      have hrest := ih before (part ++ [c]) done
      rw [if_neg (by simpa using hc), hstay, hnext]
      simpa [List.splitOnPPrepend_cons_eq_if, hc, Nat.add_assoc] using hrest

theorem splitOn_bar (s : String) : s.splitOn "/" = (s.toList.splitOn '/').map ofList := by
  have hparts := splitOnAux_bar [] [] s.toList []
  rw [List.append_nil, List.nil_append, String.ofList_toList] at hparts
  rw [String.splitOn, if_neg (by decide), List.splitOn, List.splitOnP_eq_splitOnPPrepend]
  exact hparts

/-- Parts without bars, with bars between them, are taken apart again. -/
theorem splitOn_intercalate {parts : List String} (whole : ∀ part ∈ parts, '/' ∉ part.toList) (some : parts ≠ []) :
    ("/".intercalate parts).splitOn "/" = parts := by
  have hparts : (['/'].intercalate (parts.map String.toList)).splitOn '/' = parts.map String.toList :=
    List.splitOn_intercalate '/' (List.forall_mem_map.mpr whole) (mt List.map_eq_nil_iff.mp some)
  rw [splitOn_bar, String.toList_intercalate, show "/".toList = ['/'] from rfl, hparts]
  simp

/-- Where messages for a session are sent. -/
def messagesPath (part : String) : String := "/".intercalate ["", "api", "v1", "chat", "sessions", part, "messages"]

theorem ofPath?_messagesPath {part : String} (whole : '/' ∉ part.toList) :
    Endpoint.ofPath? (messagesPath part) = some (.messages part) := by
  have hparts : (messagesPath part).splitOn "/" = ["", "api", "v1", "chat", "sessions", part, "messages"] := by
    refine splitOn_intercalate (fun p hp => ?_) (List.cons_ne_nil _ _)
    simp only [List.mem_cons, List.not_mem_nil, or_false] at hp
    rcases hp with rfl | rfl | rfl | rfl | rfl | rfl | rfl <;> first | exact whole | decide
  rw [Endpoint.ofPath?, hparts]
  rfl

end Fleet.Http
