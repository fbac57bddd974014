import BitPattern.Pattern.Text
import BitPattern.Proofs.Regrouping

/-!
The text of a pattern and the texts of its bytes. Groups and bytes are the same eights of positions,
so a text is put together from the texts of the bytes. Only the last byte may show more than the
last group does: the clear bits that it was filled up with, which are written first.
-/

set_option autoImplicit false

namespace BitPattern

theorem Pattern.render_ofList (s : Style) {g : List Trit} (h : g.length ≤ 8) :
    Pattern.render s (Row.ofList g : Pattern 8) =
      List.replicate (8 - g.length) '0' ++ (s.group g).flatten := by
  have hclear : s.bit default = ['0'] := rfl
  have hlength : (g ++ List.replicate (8 - g.length) default).length ≤ 8 := by
    rw [List.length_append, List.length_replicate]
    omega
  rw [Pattern.render, Row.toList_ofList_of_le h, Style.render_of_length_le hlength, Style.group,
    Style.group, List.reverse_append, List.map_append, List.flatten_append, List.reverse_replicate,
    List.map_replicate, hclear, List.flatten_replicate_singleton]

variable {w : Nat}

theorem Pattern.render_getElem_toBytes (s : Style) (p : Pattern w) {j : Nat}
    (h : j < p.toBytes.length) (hj : j < (octets p.toList).length) :
    (p.toBytes[j]).render s =
      List.replicate (if j < w / 8 then 0 else 8 - w % 8) '0' ++
        (s.group (octets p.toList)[j]).flatten := by
  have hle := length_le_of_mem_octets (List.getElem_mem hj)
  have hbyte : p.toBytes[j] = Row.ofList (octets p.toList)[j] := by simp [Pattern.toBytes]
  rw [hbyte, Pattern.render_ofList s hle, length_getElem_octets, p.length_toList]
  by_cases hwhole : j < w / 8
  · rw [if_pos hwhole, if_pos hwhole]
  · rw [if_neg hwhole, if_neg hwhole]

theorem Pattern.map_render_octets (s : Style) (p : Pattern w) :
    ((octets p.toList).map fun g => (s.group g).flatten) =
      if w % 8 = 0 then p.toBytes.map (Pattern.render s)
      else (p.toBytes.map (Pattern.render s)).modify (p.toBytes.length - 1)
        (List.drop (8 - w % 8)) := by
  have hcount := p.length_toBytes
  unfold octetCount at hcount
  by_cases hw : w % 8 = 0
  · rw [if_pos hw]
    apply List.ext_getElem (by simp [p.length_toList])
    intro j hj hb
    rw [List.length_map] at hj hb
    rw [List.getElem_map, List.getElem_map, p.render_getElem_toBytes s hb hj, if_pos (by omega)]
    rfl
  · -- the last group is the only one that is shorter than its byte
    rw [if_neg hw]
    apply List.ext_getElem (by simp [p.length_toList])
    intro j hj hb
    rw [List.length_map] at hj
    rw [List.length_modify, List.length_map] at hb
    rw [List.getElem_map, List.getElem_modify, List.getElem_map,
      p.render_getElem_toBytes s hb hj]
    by_cases hlast : p.toBytes.length - 1 = j
    · rw [if_pos hlast, if_neg (by omega), List.drop_left' List.length_replicate]
    · rw [if_neg hlast, if_pos (by omega)]
      rfl

theorem Pattern.take_render_getLast (s : Style) (p : Pattern w) (hw : w % 8 ≠ 0) :
    ∃ byte, p.toBytes.getLast? = some byte ∧
      (byte.render s).take (8 - w % 8) = List.replicate (8 - w % 8) '0' := by
  have hcount : p.toBytes.length = w / 8 + 1 := by
    rw [p.length_toBytes, octetCount]
    omega
  have hbyte : w / 8 < p.toBytes.length := by omega
  have hgroup : w / 8 < (octets p.toList).length := by
    rwa [length_octets, p.length_toList, ← p.length_toBytes]
  have hlast : p.toBytes.getLast? = p.toBytes[w / 8]? := by
    rw [List.getLast?_eq_getElem?, hcount, Nat.add_sub_cancel]
  refine ⟨p.toBytes[w / 8], hlast.trans (List.getElem?_eq_getElem hbyte), ?_⟩
  rw [p.render_getElem_toBytes s hbyte hgroup, if_neg (Nat.lt_irrefl _),
    List.take_left' List.length_replicate]

/-- The text of a pattern is the texts of its bytes, the separator between them; where the width
ends inside the last byte, the clear bits that this byte begins with are left out. More generally a
separator stands between whole groups and what follows them. -/
theorem Style.render_bytes (s : Style) :
    (∀ {w : Nat} (p : Pattern w),
        (p.render s = s.separator.intercalate
          (if w % 8 = 0 then p.toBytes.map (Pattern.render s)
          else (p.toBytes.map (Pattern.render s)).modify (p.toBytes.length - 1)
            (List.drop (8 - w % 8)))) ∧
        (w % 8 ≠ 0 → ∃ byte, p.toBytes.getLast? = some byte ∧
          (byte.render s).take (8 - w % 8) = List.replicate (8 - w % 8) '0')) ∧
      ∀ xs ys : List Trit, xs ≠ [] → 8 ∣ xs.length → ys ≠ [] →
        s.render (xs ++ ys) = s.render xs ++ s.separator ++ s.render ys := by
  refine ⟨fun p => ⟨?_, p.take_render_getLast s⟩, ?_⟩
  · rw [Pattern.render, s.render_eq_intercalate, p.map_render_octets]
  · intro xs ys hx h hy
    exact Style.render_append h hx hy

-- The marker looks like two clear bits, and the last byte loses four of the characters it begins
-- with, none of them from the marker.
theorem Style.render_bytes_twelve :
    let s : Style := ⟨['0', '0'], ['0']⟩
    let p : Pattern 12 := .ofList [.one, .zero, .zero, .zero, .zero, .zero, .zero, .unknown, .one,
      .zero, .one, .unknown]
    12 % 8 ≠ 0 ∧
      (∃ byte, p.toBytes.getLast? = some byte ∧
        (byte.render s).take (8 - 12 % 8) = List.replicate (8 - 12 % 8) '0') ∧
      p.toList.take 8 ≠ [] ∧ 8 ∣ (p.toList.take 8).length ∧ p.toList.drop 8 ≠ [] ∧
      s.render (p.toList.take 8 ++ p.toList.drop 8) =
        s.render (p.toList.take 8) ++ s.separator ++ s.render (p.toList.drop 8) := by
  intro s p
  have hwidth : 12 % 8 ≠ 0 := by decide
  have hfront : p.toList.take 8 ≠ [] := by decide
  have hwhole : 8 ∣ (p.toList.take 8).length := by decide
  have hback : p.toList.drop 8 ≠ [] := by decide
  exact ⟨hwidth, (s.render_bytes.1 p).2 hwidth, hfront, hwhole, hback,
    s.render_bytes.2 _ _ hfront hwhole hback⟩

end BitPattern
