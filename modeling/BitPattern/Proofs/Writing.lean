import BitPattern.Style

/-!
Writing to an output that may refuse. Nothing is assumed of the output: an observer notes what it is
handed and what it answers, and its answers alone tell where the writing ends.
-/

set_option autoImplicit false

namespace BitPattern

variable {σ : Type}

/-- Keeps a note of every piece that is handed over, and of whether it was taken. -/
def noted (put : List Char → σ → Bool × σ) (p : List Char)
    (out : σ × List (List Char × Bool)) : Bool × σ × List (List Char × Bool) :=
  let (taken, next) := put p out.1
  (taken, next, out.2 ++ [(p, taken)])

def Style.handed (s : Style) (put : List Char → σ → Bool × σ) (bits : List Trit) (out : σ) :
    List (List Char × Bool) :=
  (s.write (noted put) bits (out, [])).2.2

/-- Takes the first `m` of these pieces and refuses the one after them, if there is one. -/
def TakesFirst (put : List Char → σ → Bool × σ) : List (List Char) → Nat → σ → Prop
  | [], _, _ => True
  | p :: _, 0, out => (put p out).1 = false
  | p :: ps, m + 1, out => (put p out).1 = true ∧ TakesFirst put ps m (put p out).2

variable {put : List Char → σ → Bool × σ} {out : σ}

theorem offerPieces_cons (put : List Char → σ → Bool × σ) (p : List Char)
    (ps : List (List Char)) (out : σ) : offerPieces put (p :: ps) out =
      if (put p out).1 = true then offerPieces put ps (put p out).2
      else (false, (put p out).2) := by
  rw [offerPieces]
  rcases put p out with ⟨taken, next⟩
  cases taken <;> rfl

theorem offerPieces_noted_cons (put : List Char → σ → Bool × σ) (p : List Char)
    (ps : List (List Char)) (out : σ) (notes : List (List Char × Bool)) :
    offerPieces (noted put) (p :: ps) (out, notes) =
      if (put p out).1 = true then
        offerPieces (noted put) ps ((put p out).2, notes ++ [(p, true)])
      else (false, (put p out).2, notes ++ [(p, false)]) := by
  rw [offerPieces_cons, noted]
  rcases put p out with ⟨taken, next⟩
  cases taken <;> rfl

/-- Taking notes changes neither the answer nor what becomes of the output. -/
theorem offerPieces_noted (put : List Char → σ → Bool × σ) (ps : List (List Char)) (out : σ)
    (notes : List (List Char × Bool)) :
    (offerPieces (noted put) ps (out, notes)).1 = (offerPieces put ps out).1 ∧
      (offerPieces (noted put) ps (out, notes)).2.1 = (offerPieces put ps out).2 := by
  induction ps generalizing out notes with
  | nil => exact ⟨rfl, rfl⟩
  | cons p ps ih =>
    rw [offerPieces_noted_cons, offerPieces_cons]
    by_cases h : (put p out).1 = true
    · rw [if_pos h, if_pos h]
      exact ih _ _
    · rw [if_neg h, if_neg h]
      exact ⟨rfl, rfl⟩

theorem exists_takesFirst (put : List Char → σ → Bool × σ) (ps : List (List Char)) (out : σ) :
    ∃ m ≤ ps.length, TakesFirst put ps m out := by
  induction ps generalizing out with
  | nil => exact ⟨0, Nat.le_refl 0, trivial⟩
  | cons p ps ih =>
    cases htaken : (put p out).1 with
    | false => exact ⟨0, Nat.zero_le _, htaken⟩
    | true =>
      obtain ⟨m, hm, hfirst⟩ := ih (put p out).2
      exact ⟨m + 1, Nat.succ_le_succ hm, htaken, hfirst⟩

theorem accepted_iff_of_takesFirst {m : Nat} {ps : List (List Char)}
    (h : TakesFirst put ps m out) : (offerPieces put ps out).1 = true ↔ ps.length ≤ m := by
  induction ps generalizing m out with
  | nil => simp [offerPieces]
  | cons p ps ih =>
    rw [offerPieces_cons]
    cases m with
    | zero =>
      have hrefused : (put p out).1 = false := h
      simp [hrefused]
    | succ m =>
      obtain ⟨htaken, hrest⟩ := h
      rw [if_pos htaken, ih hrest, List.length_cons, Nat.add_le_add_iff_right]

theorem notes_of_takesFirst {m : Nat} {ps : List (List Char)} (h : TakesFirst put ps m out)
    (notes : List (List Char × Bool)) : (offerPieces (noted put) ps (out, notes)).2.2 =
      notes ++ ((ps.take m).map (·, true) ++ ps[m]?.toList.map (·, false)) := by
  induction ps generalizing m out notes with
  | nil => simp [offerPieces]
  | cons p ps ih =>
    rw [offerPieces_noted_cons]
    cases m with
    | zero =>
      have hrefused : (put p out).1 = false := h
      simp [hrefused]
    | succ m =>
      obtain ⟨htaken, hrest⟩ := h
      rw [if_pos htaken, ih hrest, List.append_assoc]
      rfl

/-- The piece that is refused is the last one to do anything to the output. -/
theorem offerPieces_snd_of_takesFirst {m : Nat} {ps : List (List Char)}
    (h : TakesFirst put ps m out) :
    (offerPieces put ps out).2 = (ps.take (m + 1)).foldl (fun out p => (put p out).2) out := by
  induction ps generalizing m out with
  | nil => rfl
  | cons p ps ih =>
    rw [offerPieces_cons, List.take_succ_cons, List.foldl_cons]
    cases m with
    | zero =>
      have hrefused : (put p out).1 = false := h
      simp [hrefused]
    | succ m =>
      obtain ⟨htaken, hrest⟩ := h
      rw [if_pos htaken, ih hrest]

theorem Style.length_pieces (s : Style) (bits : List Trit) :
    (s.pieces bits).length = bits.length + (octetCount bits.length - 1) := by
  induction bits using octets_induction with
  | last bits hle =>
    have hcount : octetCount bits.length - 1 = 0 := by
      unfold octetCount
      omega
    rw [Style.pieces_of_length_le hle, hcount]
    simp [Style.group]
  | group xs ys hx hy ih =>
    have hpos := List.length_pos_iff.2 hy
    have hne : xs ≠ [] := List.ne_nil_of_length_pos (by omega)
    rw [Style.pieces_append (by omega) hne hy, Style.pieces_of_length_le (by omega)]
    simp only [Style.group, List.length_append, List.length_cons, List.length_map,
      List.length_reverse, ih]
    unfold octetCount
    omega

theorem Sink.takesFirst {out : Sink} {m : Nat} (h : out.kept.length + m = out.room)
    (ps : List (List Char)) : TakesFirst Sink.put ps m out := by
  induction ps generalizing m out with
  | nil => trivial
  | cons p ps ih =>
    cases m with
    | zero =>
      have hfull : ¬out.kept.length < out.room := by omega
      rw [TakesFirst, Sink.put, if_neg hfull]
    | succ m =>
      have hroom : out.kept.length < out.room := by omega
      rw [TakesFirst, Sink.put, if_pos hroom]
      refine ⟨rfl, ih ?_⟩
      simp only [List.length_append, List.length_singleton]
      omega

/-- The pieces of a text are one for each bit and one for each separator, and together they are the
text. Every output, whatever it takes and refuses, is handed these pieces in their order up to the
first one that it refuses, and nothing after that one. So an output that takes the first `m` of them
and refuses the next one has the whole text exactly if there is no next one. -/
theorem Style.write_until_refused (s : Style) (bits : List Trit) :
    ((s.pieces bits).length = bits.length + (octetCount bits.length - 1) ∧
        (s.pieces bits).flatten = s.render bits) ∧
      ∀ {σ : Type} (put : List Char → σ → Bool × σ) (out : σ),
        ((s.write (noted put) bits (out, [])).1 = (s.write put bits out).1 ∧
          (s.write (noted put) bits (out, [])).2.1 = (s.write put bits out).2) ∧
        (∃ m ≤ (s.pieces bits).length,
          ((s.write put bits out).1 = true ↔ m = (s.pieces bits).length) ∧
            s.handed put bits out = ((s.pieces bits).take m).map (·, true) ++
              (s.pieces bits)[m]?.toList.map (·, false)) ∧
        ((s.write put bits out).1 = true →
          ((s.handed put bits out).map Prod.fst).flatten = s.render bits) ∧
        ∀ m, TakesFirst put (s.pieces bits) m out →
          ((s.write put bits out).1 = true ↔ (s.pieces bits).length ≤ m) ∧
            s.handed put bits out = ((s.pieces bits).take m).map (·, true) ++
              (s.pieces bits)[m]?.toList.map (·, false) ∧
            (s.write put bits out).2 =
              ((s.pieces bits).take (m + 1)).foldl (fun out p => (put p out).2) out := by
  refine ⟨⟨s.length_pieces bits, rfl⟩, fun {σ} put out => ?_⟩
  obtain ⟨m, hm, hfirst⟩ := exists_takesFirst put (s.pieces bits) out
  have haccepted := accepted_iff_of_takesFirst hfirst
  have hhanded := notes_of_takesFirst hfirst []
  refine ⟨offerPieces_noted put _ out [], ⟨m, hm, ?_, hhanded⟩, ?_, ?_⟩
  · exact haccepted.trans ⟨fun hle => Nat.le_antisymm hm hle, fun heq => Nat.le_of_eq heq.symm⟩
  · intro hdone
    have hall : s.handed put bits out = (s.pieces bits).map (·, true) := by
      have hle := haccepted.1 hdone
      rw [List.take_of_length_le hle, List.getElem?_eq_none hle] at hhanded
      exact hhanded.trans (List.append_nil _)
    rw [hall, List.map_map, Style.render]
    exact congrArg List.flatten (List.map_id _)
  · intro n hn
    exact ⟨accepted_iff_of_takesFirst hn, notes_of_takesFirst hn [],
      offerPieces_snd_of_takesFirst hn⟩

-- The first output counts pieces, and all of them are empty; the second one counts characters, so
-- that it would still take an empty piece after the one that it refuses.
theorem Style.write_until_refused_empty :
    let s : Style := ⟨[], []⟩
    let unknown := List.replicate 9 Trit.unknown
    let sink : Sink := ⟨8, [], 0⟩
    let put : List Char → Nat → Bool × Nat := fun p room =>
      if p.length ≤ room then (true, room - p.length) else (false, room)
    let bits : List Trit := [.unknown, .zero, .unknown, .one, .unknown]
    (TakesFirst Sink.put (s.pieces unknown) 8 sink ∧
      ((s.write Sink.put unknown sink).1 = true ↔ (s.pieces unknown).length ≤ 8) ∧
      s.handed Sink.put unknown sink = ((s.pieces unknown).take 8).map (·, true) ++
        (s.pieces unknown)[8]?.toList.map (·, false)) ∧
      TakesFirst put (s.pieces bits) 3 1 ∧
      s.handed put bits 1 = [([], true), (['1'], true), ([], true), (['0'], false)] := by
  intro s unknown sink put bits
  have hsink : TakesFirst Sink.put (s.pieces unknown) 8 sink := Sink.takesFirst rfl _
  have hwritten := ((s.write_until_refused unknown).2 Sink.put sink).2.2.2 8 hsink
  have hpieces : s.pieces bits = [[], ['1'], [], ['0'], []] := by decide
  have hput : TakesFirst put (s.pieces bits) 3 1 := by
    rw [hpieces]
    exact ⟨rfl, rfl, rfl, rfl⟩
  have hhanded := (((s.write_until_refused bits).2 put 1).2.2.2 3 hput).2.1
  rw [hpieces] at hhanded
  exact ⟨⟨hsink, hwritten.1, hwritten.2.1⟩, hput, hhanded⟩

end BitPattern
