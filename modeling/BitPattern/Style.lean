import BitPattern.Octets
import BitPattern.Trit

/-!
How bits are written. They stand in groups of eight from bit 0 on, each group with its highest bit
first, and a separator goes before every group but the first. The text is made of pieces, one for
each bit and one for each separator, so that it can also be handed over piece by piece.
-/

set_option autoImplicit false

namespace BitPattern

structure Style where
  marker : List Char
  separator : List Char
  deriving DecidableEq, Repr

def Style.plain : Style := ⟨['*'], [' ']⟩

def Style.withMarker (marker : List Char) : Style := { Style.plain with marker }

def Style.bit (s : Style) : Trit → List Char
  | .zero => ['0']
  | .one => ['1']
  | .unknown => s.marker

def Style.group (s : Style) (bits : List Trit) : List (List Char) := bits.reverse.map s.bit

/-- The pieces of all groups in turn, with the separator in front of every group but the first. -/
def Style.pieces (s : Style) (bits : List Trit) : List (List Char) :=
  ((octets bits).map s.group).zipIdx.flatMap fun (g, j) =>
    (if 0 < j then [s.separator] else []) ++ g

def Style.render (s : Style) (bits : List Trit) : List Char := (s.pieces bits).flatten

/-- Hands pieces over one by one, and none after one that was refused. -/
def offerPieces {σ : Type} (put : List Char → σ → Bool × σ) : List (List Char) → σ → Bool × σ
  | [], out => (true, out)
  | p :: ps, out =>
    match put p out with
    | (true, out) => offerPieces put ps out
    | (false, out) => (false, out)

def Style.write {σ : Type} (s : Style) (put : List Char → σ → Bool × σ) (bits : List Trit) :
    σ → Bool × σ :=
  offerPieces put (s.pieces bits)

/-- An output that keeps what it accepts and refuses everything once it is full. -/
structure Sink where
  room : Nat
  kept : List (List Char) := []
  refused : Nat := 0
  deriving DecidableEq, Repr

def Sink.put (p : List Char) (out : Sink) : Bool × Sink :=
  if out.kept.length < out.room then (true, { out with kept := out.kept ++ [p] })
  else (false, { out with refused := out.refused + 1 })

theorem intercalate_cons {α : Type} (x xs : List α) (xss : List (List α)) :
    x.intercalate (xs :: xss) = xs ++ xss.flatMap (x ++ ·) := by
  induction xss generalizing xs with
  | nil => simp
  | cons ys xss ih => simp [List.intercalate_cons_cons, ih]

theorem intercalate_append {α : Type} {x : α} {xss yss : List (List α)} (hx : xss ≠ [])
    (hy : yss ≠ []) :
    [x].intercalate (xss ++ yss) = [x].intercalate xss ++ x :: [x].intercalate yss := by
  obtain ⟨xs, xss, rfl⟩ := List.exists_cons_of_ne_nil hx
  obtain ⟨ys, yss, rfl⟩ := List.exists_cons_of_ne_nil hy
  simp [intercalate_cons]

theorem flatten_intercalate {α : Type} (x : List α) (xss : List (List (List α))) :
    ([x].intercalate xss).flatten = x.intercalate (xss.map List.flatten) := by
  induction xss with
  | nil => rfl
  | cons xs xss ih =>
    cases xss with
    | nil => simp
    | cons ys xss =>
      rw [List.map_cons] at ih
      simp [List.intercalate_cons_cons, ih]

/-- What goes in front of every list but the first goes between the lists. -/
theorem flatMap_zipIdx_eq_intercalate {α : Type} (x : α) (xss : List (List α)) :
    (xss.zipIdx.flatMap fun (xs, j) => (if 0 < j then [x] else []) ++ xs) =
      [x].intercalate xss := by
  have hrest : ∀ (yss : List (List α)) (n : Nat),
      ((yss.zipIdx (n + 1)).flatMap fun (ys, j) => (if 0 < j then [x] else []) ++ ys) =
        yss.flatMap ([x] ++ ·) := by
    intro yss
    induction yss with
    | nil => intro n; rfl
    | cons ys yss ih => intro n; simp [List.zipIdx_cons, ih]
  cases xss with
  | nil => rfl
  | cons xs xss => simp [List.zipIdx_cons, intercalate_cons, hrest]

theorem Style.pieces_eq_intercalate (s : Style) (bits : List Trit) :
    s.pieces bits = [s.separator].intercalate ((octets bits).map s.group) :=
  flatMap_zipIdx_eq_intercalate _ _

theorem Style.render_eq_intercalate (s : Style) (bits : List Trit) :
    s.render bits = s.separator.intercalate ((octets bits).map fun g => (s.group g).flatten) := by
  rw [Style.render, s.pieces_eq_intercalate, flatten_intercalate, List.map_map]
  rfl

theorem Style.pieces_of_length_le {s : Style} {bits : List Trit} (h : bits.length ≤ 8) :
    s.pieces bits = s.group bits := by
  by_cases hb : bits = []
  · simp [hb, Style.pieces, Style.group]
  · simp [Style.pieces_eq_intercalate, octets_of_length_le hb h]

theorem Style.pieces_append {s : Style} {xs ys : List Trit} (h : 8 ∣ xs.length) (hx : xs ≠ [])
    (hy : ys ≠ []) : s.pieces (xs ++ ys) = s.pieces xs ++ s.separator :: s.pieces ys := by
  simp only [Style.pieces_eq_intercalate, octets_append h, List.map_append]
  exact intercalate_append (by simp [octets_eq_cons hx]) (by simp [octets_eq_cons hy])

theorem Style.render_of_length_le {s : Style} {bits : List Trit} (h : bits.length ≤ 8) :
    s.render bits = (s.group bits).flatten := by
  rw [Style.render, Style.pieces_of_length_le h]

theorem Style.render_append {s : Style} {xs ys : List Trit} (h : 8 ∣ xs.length) (hx : xs ≠ [])
    (hy : ys ≠ []) : s.render (xs ++ ys) = s.render xs ++ s.separator ++ s.render ys := by
  simp [Style.render, Style.pieces_append h hx hy]

theorem Style.render_append_of_length_eq {s : Style} {xs ys : List Trit} (h : xs.length = 8)
    (hy : ys ≠ []) :
    s.render (xs ++ ys) = (s.group xs).flatten ++ s.separator ++ s.render ys := by
  have hx : xs ≠ [] := List.ne_nil_of_length_pos (by omega)
  rw [Style.render_append (by omega) hx hy, Style.render_of_length_le (by omega)]

end BitPattern
