import Splice.Proofs.Enclosed
import Splice.Proofs.Lines
import Splice.Proofs.Parentheses
import Splice.Proofs.Trimming

/-!
# Blank texts

A text that is blank leaves nothing to read between the parentheses. So a text that is an expression
in parentheses is not blank, and the check for blank texts refuses nothing else.
-/
namespace Splice

namespace Blank

/-- Whatever can be trimmed off separates tokens in a source text as well. -/
theorem isGapChar_of_isBlank {c : Char} (blank : isBlank c = true) : isGapChar c = true := by
  have code (d : Char) : (c == d) = decide (c.toNat = d.toNat) := by
    rw [Bool.eq_iff_iff, beq_iff_eq, decide_eq_true_iff, Char.toNat_inj]
  have none : inTable [] c.toNat = false := rfl
  simp only [isBlank, isGapChar, isSourceBlank, isLineEnd, inTable_cons, none, code,
    Bool.or_eq_true, decide_eq_true_iff, beq_iff_eq, Bool.false_eq_true, or_false] at blank ⊢
  have space : ' '.toNat = 0x20 := rfl
  have tab : '\t'.toNat = 9 := rfl
  have lineFeed : '\n'.toNat = 10 := rfl
  have carriageReturn : '\r'.toNat = 13 := rfl
  omega

theorem isBlank_of_trim {cs : List Char} (none : (trim cs).isEmpty = true) :
    ∀ c ∈ cs, isBlank c = true := by
  intro c inside
  exact (isBlank_iff c).mpr (trim_eq_nil_iff.mp (List.isEmpty_iff.mp none) c inside)

end Blank

/-- The parentheses around a blank text stand next to each other. -/
theorem inParens_blank {text : String} (blank : ∀ c ∈ text.toList, Blank.isBlank c = true) :
    Laid [.mark .lparen, .mark .rparen] (inParens text).toList := by
  have gap : (text.toList ++ ['\n']).all isGapChar = true := by
    rw [List.all_append, Bool.and_eq_true]
    exact ⟨List.all_eq_true.mpr fun c inside => Blank.isGapChar_of_isBlank (blank c inside), by decide⟩
  have nothing : Laid [] [] := .done rfl
  have close : Laid [.mark .rparen] ((text.toList ++ ['\n']) ++ [')']) :=
    (nothing.mark .rparen fun c => rfl).gap gap
  have text : (inParens text).toList = '(' :: ((text.toList ++ ['\n']) ++ [')']) := by
    simp [inParens]
  rw [text]
  exact close.mark .lparen fun c => rfl

/-- What is the sole expression in its parentheses is not blank. -/
theorem sole_shown {l : Language} {text : String} {p : Parsed} {e : Node}
    (read : parse l (inParens text) = .ok p) (sole : p.tree.soleExpression? = some e) :
    (Blank.trim text.toList).isEmpty = false := by
  by_contra blank
  have laid := inParens_blank (Blank.isBlank_of_trim (Bool.not_eq_false _ ▸ blank))
  have angles : l.typed = true →
      ∀ t ∈ [Tok.mark .lparen, .mark .rparen], t.isAngle = false := by
    intro _ t inside
    simp only [List.mem_cons, List.not_mem_nil, or_false] at inside
    rcases inside with rfl | rfl <;> rfl
  have ready := ReadState.Ready.initial angles laid
  obtain ⟨t, program, -, -⟩ := parse_inv read
  obtain ⟨s, -, span, u, v, back, parens, -⟩ :=
    Read.program_sole (ready.kind_eq rfl) ready.inert ready.pure program sole
  refine Read.parenthesized_some parens ?_
  rw [back.advance.kind]
  exact (ready.advance (ready.kind_eq rfl)).kind_eq rfl

end Splice
