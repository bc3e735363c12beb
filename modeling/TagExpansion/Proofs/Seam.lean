import TagExpansion.Proofs.Likeness
import TagExpansion.Proofs.Tiling

/-
This file proves that a text may be expanded in two parts, if it is cut at the right place.

Reading a piece looks ahead: for more letters of a name, for the parenthesis that closes another,
for the end of the line, for the next tag character. If the second part begins with a tag character,
all of these searches that get to the end of the first part stop there, as they would at the end of
the text, with three exceptions. A lone tag character becomes an escape together with the one that
follows, a parenthesis that is open may still be closed, and a parameter that is the rest of the
line goes on. Where the first part ends in none of these ways, its pieces stay what they are, and
the pieces of the second part follow.
-/

namespace TagExpansion.Scan

open Tag (Definition Registry)

/-- A piece that would take up a tag character behind it. -/
def Piece.Open : Piece → Prop
  | .segment text => text = [tagChar]
  | .tag _ _ (.unclosed _) => True
  | .tag _ _ (.line _) => True
  | _ => False

instance (piece : Piece) : Decidable piece.Open :=
  match piece with
  | .segment text => inferInstanceAs (Decidable (text = [tagChar]))
  | .escape => .isFalse id
  | .tag _ _ .absent => .isFalse id
  | .tag _ _ (.enclosed _) => .isFalse id
  | .tag _ _ (.unclosed _) => .isTrue trivial
  | .tag _ _ (.line _) => .isTrue trivial

/-- A text that is empty or begins with a tag character. -/
def Resumes (text : Text) : Prop := text = [] ∨ text.head? = some tagChar

variable {tags : Registry} {second : Text}

theorem Resumes.eq_tagChar {c : Char} (resumes : Resumes second) (isHead : second.head? = some c) :
    c = tagChar := by
  rcases resumes with rfl | starts
  · cases isHead
  · rw [starts] at isHead
    cases isHead
    rfl

/-- Where something is left of the first part, the second one does not matter. -/
theorem head?_append_of_ne_nil {first : Text} (left : first ≠ []) :
    (first ++ second).head? = first.head? := by
  obtain ⟨c, rest, rfl⟩ := List.exists_cons_of_ne_nil left
  rfl

theorem Longest.append {isOf : Char → Bool} {front back : Text}
    (longest : Longest isOf front back) (resumes : Resumes second)
    (stops : back = [] → isOf tagChar = false) : Longest isOf front (back ++ second) := by
  refine ⟨longest.all, fun c isHead => ?_⟩
  by_cases left : back = []
  · rw [left, List.nil_append] at isHead
    rw [resumes.eq_tagChar isHead]
    exact stops left
  · rw [head?_append_of_ne_nil left] at isHead
    exact longest.stop c isHead

theorem Names.append {letters rest : Text} {definition : Definition}
    (names : Names tags letters rest definition) (resumes : Resumes second) :
    Names tags letters (rest ++ second) definition :=
  ⟨names.nonempty, names.longest.append resumes fun _ => rfl, names.registered⟩

theorem Takes.append {definition : Definition} {rest after letters : Text} {argument : Argument}
    (takes : Takes definition rest argument after) (resumes : Resumes second)
    (closed : after = [] → ¬(Piece.tag definition letters argument).Open) :
    Takes definition (rest ++ second) argument (after ++ second) := by
  cases takes with
  | enclosed balanced =>
    rw [List.append_assoc, List.cons_append]
    exact .enclosed balanced
  | unclosed unmatched => exact absurd trivial (closed rfl)
  | line noParenthesis required longest =>
    have left : after ≠ [] := fun nothing => closed nothing trivial
    rw [List.append_assoc]
    refine .line ?_ required (longest.append resumes fun nothing => absurd nothing left)
    rw [← List.append_assoc, head?_append_of_ne_nil (by simp [left])]
    exact noParenthesis
  | absent noParenthesis notRequired =>
    refine .absent (fun isHead => ?_) notRequired
    by_cases left : rest = []
    · rw [left, List.nil_append] at isHead
      cases resumes.eq_tagChar isHead
    · rw [head?_append_of_ne_nil left] at isHead
      exact noParenthesis isHead

/-- A name that is found in the whole text is found in the first part. -/
theorem Names.of_append {first letters rest : Text} {definition : Definition}
    (resumes : Resumes second) (split : letters ++ rest = first ++ second)
    (names : Names tags letters rest definition) :
    ∃ behind, first = letters ++ behind ∧ Names tags letters behind definition := by
  have whole : first.takeWhile Char.isAlpha ++ first.dropWhile Char.isAlpha = first :=
    List.takeWhile_append_dropWhile
  have longest := longest_takeWhile Char.isAlpha first
  have same : letters = first.takeWhile Char.isAlpha := by
    rw [← names.longest.takeWhile_append, split]
    nth_rewrite 1 [← whole]
    rw [List.append_assoc]
    exact (longest.append resumes fun _ => rfl).takeWhile_append
  rw [← same] at whole longest
  exact ⟨_, whole.symm, names.nonempty, longest, names.registered⟩

/-- What stands at the front of the first part stands at the front of the whole text, if it is not
the last piece or does not take up what follows. -/
theorem Begins.append {first after : Text} {piece : Piece} (begins : Begins tags first piece after)
    (resumes : Resumes second) (closed : after = [] → ¬piece.Open) :
    Begins tags (first ++ second) piece (after ++ second) := by
  cases begins with
  | tag names takes =>
    rw [List.append_assoc]
    exact .tag (names.append resumes) (takes.append resumes closed)
  | escape => exact .escape
  | @segment c others _ noTag noEscape longest =>
    rw [List.append_assoc]
    refine .segment (fun letters rest definition same names => ?_) (fun escape => ?_)
      (longest.append resumes fun _ => rfl)
    · rw [List.cons_append, List.cons_append, ← List.append_assoc] at same
      obtain ⟨isTag, split⟩ := List.cons.inj same
      obtain ⟨behind, inside, found⟩ := names.of_append resumes split.symm
      refine noTag letters behind definition ?_ found
      rw [List.cons_append, List.cons_append, isTag, inside]
    · rw [List.cons_append, ← List.append_assoc, List.cons_prefix_cons] at escape
      obtain ⟨isTag, next⟩ := escape
      cases inside : others ++ after with
      | nil =>
        obtain ⟨rfl, rfl⟩ := List.append_eq_nil_iff.mp inside
        exact closed rfl (congrArg (fun d => [d]) isTag.symm)
      | cons d rest =>
        rw [inside, List.cons_append, List.cons_prefix_cons] at next
        refine noEscape ?_
        rw [List.cons_append, inside, ← isTag, ← next.1]
        exact ⟨rest, rfl⟩

/-- The pieces of a text that is cut where nothing is taken up are those of its two parts. -/
theorem pieces_append (first : Text) (resumes : Resumes second)
    (closed : ∀ piece ∈ (pieces tags first).getLast?, ¬piece.Open) :
    pieces tags (first ++ second) = pieces tags first ++ pieces tags second := by
  fun_induction pieces tags first with
  | case1 => rfl
  | case2 c rest inductionHypothesis =>
    have begins := begins_readPiece tags c rest
    generalize (readPiece tags c rest).1 = piece at begins closed ⊢
    generalize (readPiece tags c rest).2 = after at begins closed inductionHypothesis ⊢
    have here : after = [] → ¬piece.Open := by
      rintro rfl
      refine closed piece ?_
      rw [pieces]
      rfl
    have later : ∀ last ∈ (pieces tags after).getLast?, ¬last.Open := by
      intro last isLast
      refine closed last ?_
      rw [List.getLast?_cons, Option.mem_def.mp isLast]
      rfl
    have whole := begins.append resumes here
    rw [List.cons_append] at whole ⊢
    rw [pieces, readPiece_of_begins whole, inductionHypothesis later, List.cons_append]

end TagExpansion.Scan

namespace TagExpansion.Engine

variable {engine : Engine} {first second : Text}

/-- Below the limit the two parts are expanded one after the other, the second one only if the
first gives a result. -/
theorem alike_expandAt_append {depth : Nat} (below : depth < engine.maxDepth)
    (resumes : Scan.Resumes second)
    (closed : ∀ piece ∈ (Scan.pieces engine.tags first).getLast?, ¬piece.Open) :
    Run.Alike (engine.expandAt depth (first ++ second))
      ((engine.expandAt depth first).andThen fun result =>
        (engine.expandAt depth second).map (result ++ ·)) := by
  simp only [expandAt_of_lt engine below]
  rw [Scan.pieces_append first resumes closed]
  refine (Run.Alike.enclose _).trans ((alike_expandPieces_append 0 _ _).trans ?_)
  refine (Run.Alike.enclose _).symm.andThen fun result => ?_
  exact (Run.Alike.enclose _).symm.map _

theorem maxDepth_pos (engine : Engine) : 0 < engine.maxDepth := by
  have atLeastOne := engine.validLimit.1
  unfold maxDepth
  omega

/-- A text that is cut before a tag character, behind a piece that takes up nothing, is expanded
like its two parts one after the other: results, calls and reports follow one another, and if the
first part fails, so does the whole, at the same point. -/
theorem expand_append_of_closed (engine : Engine) (first second : Text)
    (resumes : Scan.Resumes second)
    (closed : ∀ piece ∈ (Scan.pieces engine.tags first).getLast?, ¬piece.Open) :
    (∀ result, (engine.expand first).outcome = .ok result →
      (engine.expand (first ++ second)).outcome =
          (engine.expand second).outcome.map (result ++ ·) ∧
        (engine.expand (first ++ second)).calls =
          (engine.expand first).calls ++ (engine.expand second).calls ∧
        (engine.expand (first ++ second)).reports =
          (engine.expand first).reports ++ (engine.expand second).reports ∧
        (engine.expand (first ++ second)).diagnostics =
          (engine.expand first).diagnostics ++ (engine.expand second).diagnostics) ∧
      ∀ fault, (engine.expand first).outcome = .error fault →
        (engine.expand (first ++ second)).outcome = .error fault ∧
          (engine.expand (first ++ second)).calls = (engine.expand first).calls ∧
          (engine.expand (first ++ second)).reports = (engine.expand first).reports ∧
          (engine.expand (first ++ second)).diagnostics = (engine.expand first).diagnostics := by
  have alike : Run.Alike (engine.expand (first ++ second))
      ((engine.expand first).andThen fun result => (engine.expand second).map (result ++ ·)) :=
    alike_expandAt_append engine.maxDepth_pos resumes closed
  constructor
  · intro result ended
    rw [Journal.andThen_of_ok ended] at alike
    refine ⟨alike.outcome, alike.calls.trans ?_, alike.reports.trans ?_,
      alike.diagnostics.trans ?_⟩
    · exact List.filterMap_append
    · exact List.filterMap_append
    · exact List.filterMap_append
  · intro fault failed
    rw [Journal.andThen_of_error failed] at alike
    exact ⟨alike.outcome, alike.calls, alike.reports, alike.diagnostics⟩

/-- A cut between a tag and an unknown one. -/
theorem expand_append_of_bold :
    let engine : Engine := { tags := .builtin .plain, sink := .collect }
    let first := "a@bold(b)".toList
    let second := "@c d".toList
    Scan.Resumes second ∧ (∀ piece ∈ (Scan.pieces engine.tags first).getLast?, ¬piece.Open) ∧
      (engine.expand (first ++ second)).outcome = .ok "a*b*@c d".toList ∧
      (engine.expand (first ++ second)).diagnostics =
        [⟨.unknownTag, "Unknown tag name \"c\"".toList, 1⟩] := by
  intro engine first second
  have resumes : Scan.Resumes second := .inr rfl
  have closed : ∀ piece ∈ (Scan.pieces engine.tags first).getLast?, ¬piece.Open := by
    decide +kernel
  have front : (engine.expand first).outcome = .ok "a*b*".toList := by decide +kernel
  have back : (engine.expand second).outcome = .ok "@c d".toList := by decide +kernel
  have reported : (engine.expand first).diagnostics ++ (engine.expand second).diagnostics =
      [⟨.unknownTag, "Unknown tag name \"c\"".toList, 1⟩] := by decide +kernel
  obtain ⟨outcome, -, -, diagnostics⟩ :=
    (expand_append_of_closed engine first second resumes closed).1 _ front
  rw [back] at outcome
  exact ⟨resumes, closed, outcome, diagnostics.trans reported⟩

end TagExpansion.Engine
