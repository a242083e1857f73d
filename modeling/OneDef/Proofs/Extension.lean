import OneDef.Proofs.Concatenation

/-!
# More tokens behind

What parsing says of some tokens is final, unless it says that the input ended too early.  A definition that
was read is still read when more tokens follow, and a token that was refused is still refused.  Where the
input ended too early, there are tokens that complete it.

For sources this means that a program stays the same whatever is put behind the source, as long as that can
be scanned and no run of word characters goes on into it.
-/

namespace OneDef

namespace Grammar

open OneDef.Parser

variable {ts : List Token}

/-- The input ended before a definition was complete. -/
def EndsEarly (result : Except ParseError Tree) : Prop :=
  ∃ expected span, result = .error (.unexpectedEnd expected span)

theorem parse_append_of_not_endsEarly (h : ¬EndsEarly (Tree.parse ts)) (more : List Token) :
    Tree.parse (ts ++ more) = Tree.parse ts := by
  cases reads_definition.outcome ts with
  | @ok front rest tree hts hdefinition _ =>
    have hfront : front <+: ts := ⟨rest, hts.symm⟩
    calc
      Tree.parse (ts ++ more) = .ok tree :=
        hdefinition.parse_of_prefix (hfront.trans (List.prefix_append ts more))
      _ = Tree.parse ts := (hdefinition.parse_of_prefix hfront).symm
  | ended hread _ => exact absurd ⟨_, _, parse_of_ended hread⟩ h
  | @refused front rest found kind hts _ _ hread =>
    rw [hts, List.append_assoc, List.cons_append]
    calc
      Tree.parse (front ++ found :: (rest ++ more)) =
          .error (.unexpectedToken kind found.kind found.span) := parse_of_refused (hread _)
      _ = Tree.parse (front ++ found :: rest) := (parse_of_refused (hread _)).symm

theorem exists_parse_append_of_endsEarly (h : EndsEarly (Tree.parse ts)) :
    ∃ more tree, Tree.parse (ts ++ more) = .ok tree := by
  obtain ⟨expected, span, h⟩ := h
  cases reads_definition.outcome ts with
  | ok front hts _ hread =>
    rw [hts, parse_of_ok (hread _ rfl)] at h
    cases h
  | @ended kind _ _ hnext =>
    obtain ⟨more, tree, hdefinition⟩ := hnext (sample kind) rfl
    rw [List.append_assoc] at hdefinition
    exact ⟨_, tree, hdefinition.parse_of_prefix List.prefix_rfl⟩
  | refused front hts _ _ hread =>
    rw [hts, parse_of_refused (hread _)] at h
    cases h

end Grammar

section Sources

variable {a b program : String} {tree : Tree} {tb : List Token}

open Pieces Grammar

/-- A text behind a source changes nothing about its tree. -/
theorem parseSource_append (hlimit : (a ++ b).utf8ByteSize ≤ Span.limit)
    (hsep : Separated a.toList b.toList) (hb : lex b = .ok tb) (h : parseSource a = .ok tree) :
    parseSource (a ++ b) = .ok tree := by
  obtain ⟨ta, ha, hparse⟩ := parseSource_eq_ok_iff.1 h
  have hboth := lex_append_of_ok hlimit hsep ha
  rw [hb] at hboth
  have hfinal : ¬EndsEarly (Tree.parse ta) := by
    rintro ⟨_, _, hearly⟩
    rw [hparse] at hearly
    cases hearly
  exact parseSource_eq_ok_iff.2 ⟨_, hboth, (parse_append_of_not_endsEarly hfinal _).trans hparse⟩

theorem compile_append (hlimit : (a ++ b).utf8ByteSize ≤ Span.limit)
    (hsep : Separated a.toList b.toList) (hb : lex b = .ok tb) (h : compile a = .ok program) :
    compile (a ++ b) = .ok program := by
  obtain ⟨tree, htree⟩ := exists_parseSource_of_compile h
  have hboth := parseSource_append hlimit hsep hb htree
  rw [← h]
  exact (compile_eq_iff hboth htree).2 rfl

end Sources

/-- What parsing says is final, unless the input ended too early, and then some continuation is a definition.
A source compiles to the same program with any text behind it that can be scanned and that no run of word
characters goes on into. -/
theorem parse_is_final :
    (∀ ts more, ¬Grammar.EndsEarly (Tree.parse ts) → Tree.parse (ts ++ more) = Tree.parse ts) ∧
    (∀ ts, Grammar.EndsEarly (Tree.parse ts) → ∃ more tree, Tree.parse (ts ++ more) = .ok tree) ∧
    ∀ a b program tb, (a ++ b).utf8ByteSize ≤ Span.limit → Pieces.Separated a.toList b.toList →
      lex b = .ok tb → compile a = .ok program → compile (a ++ b) = .ok program :=
  ⟨fun _ more h ↦ Grammar.parse_append_of_not_endsEarly h more,
    fun _ ↦ Grammar.exists_parse_append_of_endsEarly,
    fun _ _ _ _ hlimit hsep hb ↦ compile_append hlimit hsep hb⟩

/-- `def f(` with a comma behind it is refused for good, without one it can be completed, and a definition
stays as it is with half of another behind it. -/
theorem parse_is_final_each :
    let opened := Grammar.openedParameters
    let refused := opened ++ [⟨.comma, ",", ⟨6, 7⟩⟩]
    let source := "def f() 1 end"
    let program := Program.assemble "function f() \x7b return 1 \x7d;"
    (¬Grammar.EndsEarly (Tree.parse refused) ∧
      Tree.parse (refused ++ opened) = .error (.unexpectedToken .closeParen .comma ⟨6, 7⟩)) ∧
    (Grammar.EndsEarly (Tree.parse opened) ∧ ∃ more tree, Tree.parse (opened ++ more) = .ok tree) ∧
    compile source = .ok program ∧ compile (source ++ "(def") = .ok program := by
  intro opened refused source program
  have hrefused : Tree.parse refused = .error (.unexpectedToken .closeParen .comma ⟨6, 7⟩) := rfl
  have hfinal : ¬Grammar.EndsEarly (Tree.parse refused) := by
    rintro ⟨_, _, h⟩
    rw [hrefused] at h
    cases h
  have hearly : Grammar.EndsEarly (Tree.parse opened) := ⟨_, _, rfl⟩
  have hcompile : compile source = .ok program := by decide +kernel
  have hlex : lex "(def" = .ok [⟨.openParen, "(", ⟨0, 1⟩⟩, ⟨.defWord, "def", ⟨1, 4⟩⟩] := by
    decide +kernel
  have hsep : Pieces.Separated source.toList "(def".toList := Pieces.separated_of_endsWord (by decide)
  exact ⟨⟨hfinal, (parse_is_final.1 refused opened hfinal).trans hrefused⟩,
    ⟨hearly, parse_is_final.2.1 opened hearly⟩, hcompile,
    parse_is_final.2.2 _ _ _ _ (by decide) hsep hlex hcompile⟩

end OneDef
