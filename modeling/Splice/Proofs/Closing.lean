import Splice.Proofs.Opening

/-!
# The end of a text in parentheses

The parenthesis that is put after a text stands on a line of its own. So it is the last token, unless
a comment has no end, and where no token is left there is nothing left of the text.
-/
namespace Splice

variable {cs rest : List Char}

/-! ## Skipping to the end -/

/-- The text goes on up to a closing parenthesis on a line of its own. -/
def Closes (cs : List Char) : Prop := cs = [')'] ∨ ['\n', ')'] <:+ cs

namespace Closes

theorem ne_nil (closes : Closes cs) : cs ≠ [] := by
  rintro rfl
  rcases closes with same | suffix
  · cases same
  · cases List.suffix_nil.mp suffix

theorem of_suffix (suffix : rest <:+ cs) (some : rest ≠ []) (closes : ['\n', ')'] <:+ cs) :
    Closes rest := by
  rcases List.suffix_or_suffix_of_suffix suffix closes with short | long
  · rcases List.suffix_cons_iff.mp short with rfl | shorter
    · exact .inr (List.suffix_refl _)
    · rcases List.suffix_cons_iff.mp shorter with rfl | shorter
      · exact .inl rfl
      · exact absurd (List.suffix_nil.mp shorter) some
  · exact .inr long

/-- One more character may be the line end itself. -/
theorem of_cons {c : Char} (suffix : ['\n', ')'] <:+ c :: cs) : Closes cs := by
  rcases List.suffix_cons_iff.mp suffix with same | suffix
  · exact .inl (List.cons.inj same).2.symm
  · exact .inr suffix

/-- Up to the line end any character but a parenthesis can be skipped. -/
theorem next {c : Char} (closes : Closes (c :: cs)) (paren : c ≠ ')') : Closes cs := by
  rcases closes with same | suffix
  · exact absurd (List.cons.inj same).1 paren
  · exact of_cons suffix

/-- Inside a line comment the line end is still ahead. -/
theorem tail {c : Char} (closes : Closes (c :: cs)) (paren : c ≠ ')') (newline : c ≠ '\n') :
    ['\n', ')'] <:+ cs := by
  rcases closes with same | suffix
  · exact absurd (List.cons.inj same).1 paren
  · exact (List.suffix_cons_iff.mp suffix).resolve_left fun same =>
      newline (List.cons.inj same).1.symm

end Closes

/-- Whether the end of the text shows where the skipping goes on: inside a comment, only once the
comment has ended. -/
def SkipMode.Closes : SkipMode → List Char → Prop
  | .between, cs => Splice.Closes cs
  | .line _ _, cs => ['\n', ')'] <:+ cs
  | .block _ _, cs => cs = [] ∨ Splice.Closes cs

/-- No comment hides the closing parenthesis, unless one has no end. -/
theorem skipFrom_closes (script : Bool) (mode : SkipMode) {s : Skipped} (closes : mode.Closes cs) :
    (skipFrom script mode cs s).problem ≠ none ∨ (skipFrom script mode cs s).rest ≠ [] := by
  fun_induction skipFrom script mode cs s with
  | case1 => exact absurd rfl (Closes.ne_nil closes)
  | case2 s r ih => exact ih ((Closes.next closes (by decide)).tail (by decide) (by decide))
  | case3 s r ih =>
    exact ih (.inr (.inr ((Closes.next closes (by decide)).tail (by decide) (by decide))))
  | case4 s c r line block blank ih =>
    refine ih (Closes.next closes ?_)
    rintro rfl
    revert blank
    decide +kernel
  | case5 s c r line block blank ends ih =>
    refine ih (Closes.next closes ?_)
    rintro rfl
    revert ends
    decide
  | case6 s c r line block blank ends old ih =>
    obtain ⟨-, old'⟩ := (Bool.and_eq_true ..).mp old
    obtain ⟨rest, same⟩ := List.isPrefixOf_iff_prefix.mp old'
    obtain rfl : '<' = c := (List.cons.inj same).1
    rw [if_pos old]
    exact ih (Closes.tail closes (by decide) (by decide))
  | case7 s c r line block blank ends no old ih =>
    obtain ⟨-, old'⟩ := (Bool.and_eq_true ..).mp old
    obtain ⟨rest, same⟩ := List.isPrefixOf_iff_prefix.mp old'
    obtain rfl : '-' = c := (List.cons.inj same).1
    rw [if_neg no, if_pos old]
    exact ih (Closes.tail closes (by decide) (by decide))
  | case8 s c r line block blank ends no no' =>
    rw [if_neg no, if_neg no']
    exact .inr (List.cons_ne_nil c r)
  | case9 => cases List.suffix_nil.mp closes
  | case10 start text s c r ends ih => exact ih (.of_cons closes)
  | case11 start text s c r within ih =>
    refine ih ((List.suffix_cons_iff.mp closes).resolve_left fun same => within ?_)
    rw [← (List.cons.inj same).1]
    rfl
  | case12 => exact .inl (by simp)
  | case13 start text s r ih =>
    rcases closes with none | closes
    · cases none
    · exact ih ((Closes.next closes (by decide)).next (by decide))
  | case14 start text s c r inside s' =>
    rename_i ih
    rcases closes with none | same | suffix
    · cases none
    · exact ih (.inl (List.cons.inj same).2)
    · exact ih (.inr (.of_cons suffix))

/-- So the text has another token, unless a comment has no end. -/
theorem scanToken_closes (script : Bool) (fuel pos : Nat) (trivia : Trivia) (fresh : Bool)
    (closes : Closes cs) (clean : (scanToken script fuel cs pos trivia fresh).problems = []) :
    (scanToken script fuel cs pos trivia fresh).token.kind ≠ .eof := by
  intro ends
  unfold scanToken at clean ends
  dsimp only at clean ends
  split at clean
  · simp [Scanned.ofLexeme] at clean
  next sound =>
    rw [sound] at ends
    rcases skipFrom_closes script .between closes with problem | left
    · exact problem sound
    · exact left ((readLexeme_readOff ..).ends ends)

/-! ## The parentheses -/

variable {input : Source} {s t v : ReadState input}

namespace Read

/-- If no token is left, neither is any of the text. -/
theorem rest_nil (wrapped : ['\n', ')'] <:+ input.chars) (ends : (advance s).token.kind = .eof)
    (clean : (advance s).tokenProblems = []) : s.rest = [] := by
  by_contra some
  have closes : Closes s.rest := .of_suffix s.placed.leaves.suffix some wrapped
  have none := (List.append_eq_nil_iff.mp clean).1
  exact scanToken_closes _ _ _ _ _ closes (List.reverse_eq_nil_iff.mp none) ends

/-- After the last parenthesis there is nothing, not even a semicolon. -/
theorem rest_nil_of_finishes (wrapped : ['\n', ')'] <:+ input.chars) (stays : Stays (advance s) v)
    (finishes : Finishes v t) (ends : t.token.kind = .eof) (clean : t.tokenProblems = []) :
    s.rest = [] ∧ s.tokenProblems = [] := by
  rcases finishes with rfl | ⟨semicolon, rfl⟩
  · obtain ⟨token, -, problems⟩ := stays.same (by rw [ends]; rfl)
    exact ⟨rest_nil wrapped (token ▸ ends) (problems ▸ clean),
      (List.append_eq_nil_iff.mp (problems ▸ clean)).2⟩
  · have none : v.rest = [] := rest_nil wrapped ends clean
    have last := (v.placed.mark _ semicolon).suffix
    rw [none] at last
    have short : [';'] <:+ ['\n', ')'] := List.suffix_of_suffix_length_le last wrapped (by decide)
    exact absurd short (by decide)

end Read

theorem suffix_inParens (text : String) : ['\n', ')'] <:+ (inParens text).toList := by
  rw [toList_inParens]
  exact List.suffix_append ('(' :: text.toList) ['\n', ')']

end Splice
