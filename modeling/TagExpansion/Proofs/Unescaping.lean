import TagExpansion.Proofs.Escaping
import TagExpansion.Proofs.Separators
import Mathlib.Data.List.Nodup

/-
This file proves that escaping for HTML can be undone, and that it keeps the separators of a text.

The entities are taken back one kind after the other, and the ampersand comes last. Until then every
ampersand of the text begins an entity that is still written. So an entity is found only where its
character was, and no ampersand that is put back makes another entity of the letters behind it.

Where a character stands in an escaped text, there stands the entity of a character of the text or
this character itself, and a blank has no part in an entity. So an escaped text can be cut around
blanks where the text can, and the separators of both are the same, with escaped texts around them.
-/

namespace TagExpansion

namespace Text

/-! ### Replacing a word -/

/-- Puts a text in the place of a word wherever the word stands, from left to right. What is put in
is not read again, and the empty word stands nowhere. -/
def replace (word new text : Text) : Text :=
  match text with
  | [] => []
  | c :: rest =>
    if _found : word ≠ [] ∧ word <+: c :: rest then
      new ++ replace word new ((c :: rest).drop word.length)
    else c :: replace word new rest
termination_by text.length
decreasing_by
  · have := List.length_pos_iff.mpr _found.1
    rw [List.length_drop, List.length_cons]
    omega
  · simp

section

variable {word : Text} (new : Text)

@[simp] theorem replace_nil : replace word new [] = [] := by rw [replace]

theorem replace_word_append (nonempty : word ≠ []) (rest : Text) :
    replace word new (word ++ rest) = new ++ replace word new rest := by
  obtain ⟨c, letters, rfl⟩ := List.exists_cons_of_ne_nil nonempty
  rw [List.cons_append, replace, dif_pos ⟨nonempty, List.prefix_append (c :: letters) rest⟩,
    ← List.cons_append, List.drop_left]

theorem replace_cons_of_not_prefix {c : Char} {rest : Text} (missing : ¬word <+: c :: rest) :
    replace word new (c :: rest) = c :: replace word new rest := by
  rw [replace, dif_neg fun found => missing found.2]

/-- Where the first character of a word does not stand, the word does not begin. -/
theorem replace_append_of_notMem {first : Char} {letters : Text} (begins : word.head? = some first)
    (without : first ∉ letters) (rest : Text) :
    replace word new (letters ++ rest) = letters ++ replace word new rest := by
  obtain ⟨others, rfl⟩ := List.head?_eq_some_iff.mp begins
  induction letters with
  | nil => rfl
  | cons c letters inductionHypothesis =>
    rw [List.mem_cons, not_or] at without
    have missing : ¬first :: others <+: c :: (letters ++ rest) := fun found =>
      without.1 (List.cons_prefix_cons.mp found).1
    rw [List.cons_append, replace_cons_of_not_prefix new missing, inductionHypothesis without.2,
      List.cons_append]

end

end Text

namespace Markup

/-! ### Taking entities back -/

/-- Puts the characters in the place of their entities, the ampersand last. -/
def unescape (text : Text) : Text :=
  let text := Text.replace "&lt;".toList ['<'] text
  let text := Text.replace "&gt;".toList ['>'] text
  let text := Text.replace "&quot;".toList ['"'] text
  Text.replace "&amp;".toList ['&'] text

/-- Writes only some characters of a text as entities. -/
def escapeOnly (which : List Char) (text : Text) : Text :=
  text.flatMap fun c => if c ∈ which then escapeChar c else [c]

theorem escapeOnly_cons (which : List Char) (c : Char) (text : Text) :
    escapeOnly which (c :: text) =
      (if c ∈ which then escapeChar c else [c]) ++ escapeOnly which text := rfl

theorem escapeOnly_nil (text : Text) : escapeOnly [] text = text := by
  simp [escapeOnly]

theorem isSpecial_iff_mem {c : Char} : isSpecial c = true ↔ c ∈ "<>\"&".toList := by
  simp only [isSpecial, Bool.or_eq_true, beq_iff_eq, String.reduceToList, List.mem_cons,
    List.not_mem_nil, or_false]
  constructor
  · rintro (((rfl | rfl) | rfl) | rfl) <;> simp
  · rintro (rfl | rfl | rfl | rfl) <;> simp

theorem escape_eq_escapeOnly (text : Text) : escape text = escapeOnly "<>\"&".toList text := by
  refine congrArg (List.flatMap · text) (funext fun c => ?_)
  cases special : isSpecial c with
  | true => rw [if_pos (isSpecial_iff_mem.mp special)]
  | false =>
    have plain : c ∉ "<>\"&".toList := by
      rw [← isSpecial_iff_mem, special]
      exact Bool.false_ne_true
    rw [if_neg plain, escapeChar_of_not_special special]

/-- An entity has no ampersand but the one at its front. -/
theorem exists_letters_of_mem_entities {entity : Text} (member : entity ∈ entities) :
    ∃ letters, entity = '&' :: letters ∧ '&' ∉ letters := by
  have all : ∀ entity ∈ entities, '&' ∉ entity.tail := by decide
  obtain ⟨letters, rfl⟩ := List.head?_eq_some_iff.mp (head?_of_mem_entities member)
  exact ⟨letters, rfl, all _ member⟩

/-- No entity begins like the entity of another character. -/
theorem eq_of_escapeChar_isPrefix {c d : Char} {rest : Text} (isC : isSpecial c = true)
    (isD : isSpecial d = true) (begins : escapeChar c <+: escapeChar d ++ rest) : c = d := by
  have unit {e : Char} (special : isSpecial e = true) : escapeChar e ∈ units :=
    List.mem_append_left _ (escapeChar_mem_entities special)
  have same : escapeChar c = escapeChar d := by
    rcases List.prefix_or_prefix_of_prefix begins (List.prefix_append _ _) with shorter | longer
    · exact eq_of_isPrefix_of_mem_units (unit isC) (unit isD) shorter
    · exact (eq_of_isPrefix_of_mem_units (unit isD) (unit isC) longer).symm
  have nodup : ("<>\"&".toList.map escapeChar).Nodup := by decide
  exact List.inj_on_of_nodup_map nodup (isSpecial_iff_mem.mp isC) (isSpecial_iff_mem.mp isD) same

/-- One kind of entity is taken back and nothing else, as long as ampersands are written as entities
too. -/
theorem replace_escapeOnly (c : Char) {others : List Char}
    (special : (c :: others).all isSpecial = true) (ampersand : '&' ∈ c :: others)
    (once : c ∉ others) (text : Text) :
    Text.replace (escapeChar c) [c] (escapeOnly (c :: others) text) = escapeOnly others text := by
  rw [List.all_eq_true] at special
  have isC := special c List.mem_cons_self
  have begins := head?_of_mem_entities (escapeChar_mem_entities isC)
  induction text with
  | nil => exact Text.replace_nil [c]
  | cons d rest inductionHypothesis =>
    rw [escapeOnly_cons, escapeOnly_cons]
    by_cases same : d = c
    · subst same
      have nonempty : escapeChar d ≠ [] := List.ne_nil_of_mem (List.mem_of_head? begins)
      rw [if_pos List.mem_cons_self, if_neg once, Text.replace_word_append [d] nonempty,
        inductionHypothesis]
    by_cases written : d ∈ others
    · -- Another entity: only its first character is an ampersand, and it is not the one sought.
      have isD := special d (List.mem_cons_of_mem c written)
      have missing : ¬escapeChar c <+: escapeChar d ++ escapeOnly (c :: others) rest :=
        fun found => same (eq_of_escapeChar_isPrefix isC isD found).symm
      obtain ⟨letters, isEntity, without⟩ :=
        exists_letters_of_mem_entities (escapeChar_mem_entities isD)
      rw [if_pos (List.mem_cons_of_mem c written), if_pos written]
      rw [isEntity, List.cons_append] at missing ⊢
      rw [Text.replace_cons_of_not_prefix [c] missing,
        Text.replace_append_of_notMem [c] begins without, inductionHypothesis, List.cons_append]
    · have unwritten : d ∉ c :: others := List.not_mem_cons_of_ne_of_not_mem same written
      have without : '&' ∉ [d] := by
        rw [List.mem_singleton]
        rintro rfl
        exact unwritten ampersand
      rw [if_neg unwritten, if_neg written, Text.replace_append_of_notMem [c] begins without,
        inductionHypothesis]

theorem unescape_escape (text : Text) : unescape (escape text) = text := by
  have less : Text.replace "&lt;".toList ['<'] (escape text) =
      escapeOnly ['>', '"', '&'] text := by
    rw [escape_eq_escapeOnly]
    exact replace_escapeOnly '<' (by decide) (by decide) (by decide) text
  have greater : Text.replace "&gt;".toList ['>'] (escapeOnly ['>', '"', '&'] text) =
      escapeOnly ['"', '&'] text :=
    replace_escapeOnly '>' (by decide) (by decide) (by decide) text
  have quote : Text.replace "&quot;".toList ['"'] (escapeOnly ['"', '&'] text) =
      escapeOnly ['&'] text :=
    replace_escapeOnly '"' (by decide) (by decide) (by decide) text
  have ampersand : Text.replace "&amp;".toList ['&'] (escapeOnly ['&'] text) =
      escapeOnly [] text :=
    replace_escapeOnly '&' (by decide) (by decide) (by decide) text
  simp only [unescape]
  rw [less, greater, quote, ampersand, escapeOnly_nil]

theorem escape_injective : Function.Injective escape :=
  Function.LeftInverse.injective unescape_escape

/-- An ampersand that is put back too early makes another entity of what follows it. -/
example : Text.replace "&lt;".toList ['<']
    (Text.replace "&amp;".toList ['&'] (escape "&lt;".toList)) = ['<'] := by decide +kernel

/-! ### Cutting an escaped text -/

/-- A character of an escaped text stands in what one character of the text is written as. -/
theorem exists_of_escape_eq {text front back : Text} {c : Char}
    (same : escape text = front ++ c :: back) :
    ∃ before d behind left right, text = before ++ d :: behind ∧
      escapeChar d = left ++ c :: right ∧ front = escape before ++ left ∧
      back = right ++ escape behind := by
  induction text generalizing front with
  | nil => simp at same
  | cons e rest inductionHypothesis =>
    rw [escape_cons] at same
    rcases exists_of_append_eq_append_cons same with ⟨more, rfl, isRest⟩ | ⟨right, written, isBack⟩
    · obtain ⟨before, d, behind, left, right, rfl, written, rfl, rfl⟩ := inductionHypothesis isRest
      exact ⟨e :: before, d, behind, left, right, rfl, written,
        by rw [escape_cons, List.append_assoc], rfl⟩
    · exact ⟨[], e, rest, front, right, rfl, written, rfl, isBack⟩

theorem notMem_of_mem_escape {text : Text} {c : Char} (member : c ∈ escape text) :
    c ∉ "<>\"".toList := by
  have all : ∀ entity ∈ entities, ∀ c ∈ entity, c ∉ "<>\"".toList := by
    simp [entities]
  obtain ⟨d, -, written⟩ := List.mem_flatMap.mp member
  cases special : isSpecial d with
  | true => exact all _ (escapeChar_mem_entities special) c written
  | false =>
    rw [escapeChar_of_not_special special, List.mem_singleton] at written
    subst written
    intro among
    rw [isSpecial_iff_mem.mpr (List.mem_append_left ['&'] among)] at special
    cases special

/-- Every ampersand of an escaped text begins an entity. -/
theorem exists_entity_of_escape_eq {text front rest : Text}
    (same : escape text = front ++ '&' :: rest) : ∃ entity ∈ entities, entity <+: '&' :: rest := by
  obtain ⟨before, d, behind, left, right, -, written, -, rfl⟩ := exists_of_escape_eq same
  cases special : isSpecial d with
  | true =>
    have isEntity := escapeChar_mem_entities special
    obtain ⟨letters, begins, without⟩ := exists_letters_of_mem_entities isEntity
    rw [begins] at written
    cases left with
    | nil => exact ⟨_, isEntity, escape behind, by rw [begins, written]; rfl⟩
    | cons e left =>
      obtain ⟨-, isLetters⟩ := List.cons_eq_cons.mp written
      exact absurd (isLetters ▸ List.mem_append_right left List.mem_cons_self) without
  | false =>
    rw [escapeChar_of_not_special special] at written
    have isAmpersand : '&' ∈ [d] := written ▸ List.mem_append_right left List.mem_cons_self
    rw [← List.mem_singleton.mp isAmpersand] at special
    cases special

/-- A blank has no part in an entity, so an escaped text can be cut before and behind it. -/
theorem exists_of_escape_eq_of_isBlank {text front back : Text} {c : Char}
    (blank : Text.isBlank c = true) (same : escape text = front ++ c :: back) :
    ∃ before behind, text = before ++ c :: behind ∧ front = escape before ∧
      back = escape behind := by
  obtain ⟨before, d, behind, left, right, rfl, written, rfl, rfl⟩ := exists_of_escape_eq same
  have inside : c ∈ escapeChar d := written ▸ List.mem_append_right left List.mem_cons_self
  cases special : isSpecial d with
  | true =>
    have solid := solid_of_mem_entities (escapeChar_mem_entities special) c inside
    rw [blank] at solid
    cases solid
  | false =>
    rw [escapeChar_of_not_special special] at written
    rcases List.append_eq_singleton_iff.mp written.symm with ⟨rfl, single⟩ | ⟨-, nothing⟩
    · cases single
      exact ⟨before, behind, rfl, List.append_nil _, rfl⟩
    · cases nothing

section

variable {run : Text} (blank : ∀ c ∈ run, Text.isBlank c = true)

include blank

/-- Blanks at the front of an escaped text are those at the front of the text. -/
theorem escape_eq_append_iff {text rest : Text} :
    escape text = run ++ rest ↔ ∃ behind, text = run ++ behind ∧ rest = escape behind := by
  induction run generalizing text with
  | nil => simp [eq_comm]
  | cons c others inductionHypothesis =>
    rw [List.forall_mem_cons] at blank
    rw [List.cons_append, escape_eq_cons_iff (isSpecial_of_isBlank blank.1)]
    constructor
    · rintro ⟨behind, rfl, same⟩
      obtain ⟨after, rfl, rfl⟩ := (inductionHypothesis blank.2).mp same.symm
      exact ⟨after, rfl, rfl⟩
    · rintro ⟨behind, rfl, rfl⟩
      exact ⟨others ++ behind, rfl, ((inductionHypothesis blank.2).mpr ⟨behind, rfl, rfl⟩).symm⟩

theorem escape_eq_append_append_iff (nonempty : run ≠ []) {text front back : Text} :
    escape text = front ++ run ++ back ↔
      ∃ before behind, text = before ++ run ++ behind ∧ front = escape before ∧
        back = escape behind := by
  constructor
  · intro same
    obtain ⟨c, others, rfl⟩ := List.exists_cons_of_ne_nil nonempty
    rw [List.forall_mem_cons] at blank
    rw [List.append_assoc] at same
    obtain ⟨before, rest, rfl, rfl, isRest⟩ := exists_of_escape_eq_of_isBlank blank.1 same
    obtain ⟨behind, rfl, rfl⟩ := (escape_eq_append_iff blank.2).mp isRest.symm
    exact ⟨before, behind, by simp, rfl, rfl⟩
  · rintro ⟨before, behind, rfl, rfl, rfl⟩
    have escaped := (escape_eq_append_iff blank).mpr ⟨behind, rfl, rfl⟩
    rw [List.append_assoc, escape_append, escaped, List.append_assoc]

theorem isPrefix_escape_iff {text : Text} : run <+: escape text ↔ run <+: text := by
  constructor
  · rintro ⟨rest, same⟩
    obtain ⟨behind, rfl, -⟩ := (escape_eq_append_iff blank).mp same.symm
    exact List.prefix_append run behind
  · rintro ⟨behind, rfl⟩
    exact ⟨escape behind, ((escape_eq_append_iff blank).mpr ⟨behind, rfl, rfl⟩).symm⟩

theorem isSuffix_escape_iff {text : Text} : run <:+ escape text ↔ run <:+ text := by
  by_cases empty : run = []
  · simp [empty]
  constructor
  · rintro ⟨front, same⟩
    have cut : escape text = front ++ run ++ [] := by rw [same, List.append_nil]
    obtain ⟨before, behind, rfl, -, nothing⟩ := (escape_eq_append_append_iff blank empty).mp cut
    obtain rfl : behind = [] := escape_injective nothing.symm
    exact ⟨before, (List.append_nil _).symm⟩
  · rintro ⟨before, rfl⟩
    have cut := (escape_eq_append_append_iff blank empty).mpr ⟨before, [], rfl, rfl, rfl⟩
    exact ⟨escape before, by simpa using cut.symm⟩

end

/-! ### Separators of an escaped text -/

theorem BlankRun.isBlank {run : Text} (isRun : BlankRun run) :
    ∀ c ∈ run, Text.isBlank c = true := by
  have all : ∀ c ∈ " \t\r\n".toList, Text.isBlank c = true := by simp [Text.isBlank]
  exact fun c member => all c (isRun.blankLines.mem member)

theorem separator_escape_iff {front run back : Text} :
    Separator (escape front) run (escape back) ↔ Separator front run back := by
  have around {left right : Text} (longer : BlankRun (left ++ run ++ right)) :
      (left <:+ escape front ↔ left <:+ front) ∧ (right <+: escape back ↔ right <+: back) := by
    have blank := longer.isBlank
    simp only [List.forall_mem_append] at blank
    exact ⟨isSuffix_escape_iff blank.1.1, isPrefix_escape_iff blank.2⟩
  constructor
  · intro separator
    refine ⟨separator.isRun, fun left right isLeft isRight longer => ?_⟩
    exact separator.longest left right ((around longer).1.mpr isLeft)
      ((around longer).2.mpr isRight) longer
  · intro separator
    refine ⟨separator.isRun, fun left right isLeft isRight longer => ?_⟩
    exact separator.longest left right ((around longer).1.mp isLeft)
      ((around longer).2.mp isRight) longer

/-- The separators of an escaped text are those of the text. -/
theorem separator_of_escape_iff {text front run back : Text} :
    (escape text = front ++ run ++ back ∧ Separator front run back) ↔
      ∃ before behind, text = before ++ run ++ behind ∧ Separator before run behind ∧
        front = escape before ∧ back = escape behind := by
  constructor
  · rintro ⟨same, separator⟩
    obtain ⟨before, behind, rfl, rfl, rfl⟩ :=
      (escape_eq_append_append_iff separator.isRun.isBlank separator.isRun.ne_nil).mp same
    exact ⟨before, behind, rfl, separator_escape_iff.mp separator, rfl, rfl⟩
  · rintro ⟨before, behind, rfl, separator, rfl, rfl⟩
    refine ⟨?_, separator_escape_iff.mpr separator⟩
    exact (escape_eq_append_append_iff separator.isRun.isBlank separator.isRun.ne_nil).mpr
      ⟨before, behind, rfl, rfl, rfl⟩

/-- Escaping goes character by character and leaves nothing with a meaning in HTML but entities. It
can be undone, and it keeps the separators of a text where they are. -/
theorem escape_laws :
    (∀ first second, escape (first ++ second) = escape first ++ escape second) ∧
      Function.LeftInverse unescape escape ∧ Function.Injective escape ∧
      ∀ text,
        (∀ c ∈ escape text, c ∉ "<>\"".toList) ∧
        (∀ front rest, escape text = front ++ '&' :: rest →
          ∃ entity ∈ entities, entity <+: '&' :: rest) ∧
        (∀ front run back, escape text = front ++ run ++ back ∧ Separator front run back ↔
          ∃ before behind, text = before ++ run ++ behind ∧ Separator before run behind ∧
            front = escape before ∧ back = escape behind) ∧
        ∃ parts, (∀ others, Division [] text others ↔ others = parts) ∧
          (∀ others, Division [] (escape text) others ↔ others = parts.map escape) ∧
          htmlParagraphs (escape text) = Text.join "</p>\n<p>".toList (parts.map escape) := by
  refine ⟨escape_append, unescape_escape, escape_injective, fun text => ?_⟩
  refine ⟨fun c => notMem_of_mem_escape, fun front rest => exists_entity_of_escape_eq,
    fun front run back => separator_of_escape_iff, paragraphs text,
    fun others => Division.iff_eq_paragraphs, fun others => ?_, ?_⟩
  · rw [Division.iff_eq_paragraphs, paragraphs_escape]
  · rw [htmlParagraphs, joinParagraphs, paragraphs_escape]

end Markup

end TagExpansion
