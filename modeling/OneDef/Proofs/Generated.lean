import OneDef.Proofs.RoundTrip
import OneDef.Tree.JavaScript
import Mathlib.Data.List.Basic

/-!
# Generated definitions

The function that a well-formed definition becomes says the same in other words.  Its head stands between
`function` and the first brace, and its value between `return` and the second one.  Neither has a brace in
it, so both can be found again, and between `def` and `end` they are read as the definition.

A printed text is read in one way only.  So two well-formed definitions have the same text exactly if they
differ in nothing but spans, and this holds of both printers.
-/

namespace OneDef.Tree

open Pieces Grammar

section Plain

variable {text other separator : String} {texts : List String} {name : Ident}

/-- Neither braces nor line feeds. -/
def Plain (text : String) : Prop := ∀ c ∈ text.toList, c ≠ '\x7b' ∧ c ≠ '\x7d' ∧ c ≠ '\n'

theorem Plain.append (h : Plain text) (h' : Plain other) : Plain (text ++ other) := by
  unfold Plain
  rw [String.toList_append]
  exact List.forall_mem_append.2 ⟨h, h'⟩

theorem plain_of_all {p : Char → Bool} (h : ∀ c ∈ text.toList, p c) (hopen : p '\x7b' = false)
    (hclose : p '\x7d' = false) (hfeed : p '\n' = false) : Plain text := by
  intro c hc
  have hp := h c hc
  refine ⟨?_, ?_, ?_⟩
  · rintro rfl
    simp [hopen] at hp
  · rintro rfl
    simp [hclose] at hp
  · rintro rfl
    simp [hfeed] at hp

theorem plain_name (h : name.WellFormed) : Plain name.text := plain_of_all h.2.1 rfl rfl rfl

theorem plain_int {value : String} (h : Numeral.IsCanonical value) : Plain value := by
  have hdigits := (kind?_eq_integer_iff.1 h.kind?_toList).2
  exact plain_of_all (List.all_eq_true.1 hdigits) rfl rfl rfl

theorem plain_intercalate (hseparator : Plain separator) (h : ∀ text ∈ texts, Plain text) :
    Plain (separator.intercalate texts) := by
  induction texts with
  | nil => simp [Plain]
  | cons text texts ih =>
    obtain ⟨htext, htexts⟩ := List.forall_mem_cons.1 h
    cases texts with
    | nil => rwa [String.intercalate_singleton]
    | cons next texts =>
      rw [String.intercalate_cons_cons]
      exact (htext.append hseparator).append (ih htexts)

theorem plain_parenthesized (h : ∀ text ∈ texts, Plain text) : Plain (parenthesized "," texts) := by
  have hopening : Plain "(" := by simp [Plain]
  have hclosing : Plain ")" := by simp [Plain]
  have hcomma : Plain "," := by simp [Plain]
  exact (hopening.append (plain_intercalate hcomma h)).append hclosing

end Plain

section Expressions

variable {name : Ident} {trees : List Tree} {texts : List String}

/-- A text is the expression of a tree, on one line and without braces, and is read as the tree. -/
structure Expressed (tree : Tree) (text : String) : Prop where
  toExpression_eq : tree.toExpression = .ok text
  plain : Plain text
  spells : Spells text.toList (Denotes Body eraseSpans tree.eraseSpans)

theorem toExpressions_of_expressed (h : List.Forall₂ Expressed trees texts) :
    toExpressions trees = .ok texts := by
  induction h with
  | nil => rfl
  | cons hexpressed _ ih =>
    rw [toExpressions, hexpressed.toExpression_eq, ih]
    rfl

theorem plain_of_expressed (h : List.Forall₂ Expressed trees texts) : ∀ text ∈ texts, Plain text := by
  induction h with
  | nil => simp
  | cons hexpressed _ ih => exact List.forall_mem_cons.2 ⟨hexpressed.plain, ih⟩

theorem spells_of_expressed (h : List.Forall₂ Expressed trees texts) :
    List.Forall₂ (fun text tree ↦ Spells text.toList (Denotes Body eraseSpans tree)) texts
      (eraseAllSpans trees) := by
  induction h with
  | nil => exact .nil
  | cons hexpressed _ ih => exact .cons hexpressed.spells ih

theorem expressed_call {args : List Tree} {span : Span} (hname : name.WellFormed)
    (h : List.Forall₂ Expressed args texts) :
    Expressed (.call name args span) (name.text ++ parenthesized "," texts) where
  toExpression_eq := by
    rw [toExpression, toExpressions_of_expressed h]
    rfl
  plain := (plain_name hname).append (plain_parenthesized (plain_of_expressed h))
  spells := by
    have hseparator : ",".toList = ',' :: [] := rfl
    rw [eraseSpans]
    exact spells_call hname hseparator rfl (spells_of_expressed h)

theorem expressed_var (h : name.WellFormed) : Expressed (.var name) name.text where
  toExpression_eq := by rw [toExpression]
  plain := plain_name h
  spells := by
    rw [eraseSpans]
    exact spells_var h

theorem expressed_int {value : String} {span : Span} (h : Numeral.IsCanonical value) :
    Expressed (.int value span) value where
  toExpression_eq := by rw [toExpression]
  plain := plain_int h
  spells := by
    rw [eraseSpans]
    exact spells_int h

mutual

theorem exists_expressed : ∀ tree : Tree, tree.WellFormedBody → ∃ text, Expressed tree text
  | .define .., h => h.elim
  | .call _ args _, h => by
    obtain ⟨texts, htexts⟩ := exists_forall₂_expressed args h.2
    exact ⟨_, expressed_call h.1 htexts⟩
  | .var _, h => ⟨_, expressed_var h⟩
  | .int _ _, h => ⟨_, expressed_int h⟩

theorem exists_forall₂_expressed : ∀ trees : List Tree, WellFormedBodies trees →
    ∃ texts, List.Forall₂ Expressed trees texts
  | [], _ => ⟨[], .nil⟩
  | tree :: trees, h => by
    obtain ⟨text, htext⟩ := exists_expressed tree h.1
    obtain ⟨texts, htexts⟩ := exists_forall₂_expressed trees h.2
    exact ⟨text :: texts, .cons htext htexts⟩

end

end Expressions

section Functions

variable {tree tree' : Tree} {head value head' value' : String}

/-- A function of one line. -/
def functionText (head value : String) : String :=
  "function " ++ head ++ " \x7b return " ++ value ++ " \x7d;"

/-- A definition of one line. -/
def definitionText (head value : String) : String := "def " ++ head ++ " " ++ value ++ " end"

/-- A function has one head and one value. -/
theorem functionText_inj (hhead : Plain head) (hvalue : Plain value) :
    functionText head value = functionText head' value' ↔ head = head' ∧ value = value' := by
  constructor
  · intro h
    have hsplit (head value : String) : (functionText head value).toList =
        ("function " ++ head ++ " ").toList ++ '\x7b' :: (" return " ++ value ++ " \x7d;").toList := by
      simp only [functionText, String.toList_append, List.append_assoc]
      rfl
    have hfront : '\x7b' ∉ ("function " ++ head ++ " ").toList := by
      simp only [String.toList_append, List.mem_append, not_or]
      exact ⟨⟨by decide, fun hc ↦ (hhead _ hc).1 rfl⟩, by decide⟩
    have hback : '\x7b' ∉ (" return " ++ value ++ " \x7d;").toList := by
      simp only [String.toList_append, List.mem_append, not_or]
      exact ⟨⟨by decide, fun hc ↦ (hvalue _ hc).1 rfl⟩, by decide⟩
    rw [← String.toList_inj, hsplit, hsplit, List.append_cons_inj_of_notMem hfront hback] at h
    simpa [String.toList_inj] using h
  · rintro ⟨rfl, rfl⟩
    rfl

/-- A head and a value make the function of a definition, and are read as that definition. -/
structure Generated (tree : Tree) (head value : String) : Prop where
  toJavaScript_eq : tree.toJavaScript = .ok (functionText head value)
  plain_head : Plain head
  plain_value : Plain value
  spells : Spells (definitionText head value).toList (Denotes Definition eraseSpans tree.eraseSpans)

theorem exists_generated (h : tree.WellFormed) : ∃ head value, Generated tree head value := by
  cases tree with
  | define name params body span =>
    obtain ⟨hname, hparams, hbody⟩ := h
    obtain ⟨value, hvalue⟩ := exists_expressed body hbody
    refine ⟨name.text ++ parenthesized "," (params.map Ident.text), value, ?_, ?_, hvalue.plain, ?_⟩
    · rw [toJavaScript, hvalue.toExpression_eq]
      simp only [functionText, String.append_assoc]
      rfl
    · refine (plain_name hname).append (plain_parenthesized ?_)
      exact List.forall_mem_map.2 fun param hparam ↦ plain_name (hparams param hparam)
    · have hseparator : ",".toList = ',' :: [] := rfl
      have hspells := spells_definition hname hparams hseparator rfl hvalue.spells
        (show " ".toList.all Lexeme.isBlank from rfl) (show " ".toList.all Lexeme.isBlank from rfl)
        (by decide)
      have htext : definitionText (name.text ++ parenthesized "," (params.map Ident.text)) value =
          "def " ++ name.text ++ parenthesized "," (params.map Ident.text) ++ " " ++ value ++ " " ++
            "end" := by
        simp only [definitionText, String.append_assoc]
        rfl
      rwa [htext, eraseSpans]
  | call _ _ _ | var _ | int _ _ => exact h.elim

/-- A text is read as one definition, up to spans. -/
theorem eq_of_spells {cs : List Char} (h : Spells cs (Denotes Definition eraseSpans tree))
    (h' : Spells cs (Denotes Definition eraseSpans tree')) : tree = tree' := by
  obtain ⟨read, hread, rfl⟩ := h.2 0
  obtain ⟨read', hread', rfl⟩ := h'.2 0
  rw [(hread.unique_of_prefix hread' List.prefix_rfl List.prefix_rfl).2]

end Functions

section Erasure

variable {tree tree' : Tree}

mutual

theorem toSource_eraseSpans : ∀ tree : Tree, tree.eraseSpans.toSource = tree.toSource
  | .define name params body span => by
    have hparams : (params.map Ident.eraseSpan).map Ident.text = params.map Ident.text :=
      List.map_map
    rw [eraseSpans, toSource, toSource, toSource_eraseSpans body, hparams]
    rfl
  | .call name args span => by
    rw [eraseSpans, toSource, toSource, toSources_eraseAllSpans args]
    rfl
  | .var name => by
    rw [eraseSpans, toSource, toSource]
    rfl
  | .int value span => by rw [eraseSpans, toSource, toSource]

theorem toSources_eraseAllSpans : ∀ trees : List Tree,
    toSources (eraseAllSpans trees) = toSources trees
  | [] => rfl
  | tree :: trees => by
    rw [eraseAllSpans, toSources, toSources, toSource_eraseSpans tree, toSources_eraseAllSpans trees]

end

mutual

theorem toExpression_eraseSpans : ∀ tree : Tree, tree.WellFormedBody →
    tree.eraseSpans.toExpression = tree.toExpression
  | .define .., h => h.elim
  | .call name args span, h => by
    rw [eraseSpans, toExpression, toExpression, toExpressions_eraseAllSpans args h.2]
    rfl
  | .var name, _ => by
    rw [eraseSpans, toExpression, toExpression]
    rfl
  | .int value span, _ => by rw [eraseSpans, toExpression, toExpression]

theorem toExpressions_eraseAllSpans : ∀ trees : List Tree, WellFormedBodies trees →
    toExpressions (eraseAllSpans trees) = toExpressions trees
  | [], _ => rfl
  | tree :: trees, h => by
    rw [eraseAllSpans, toExpressions, toExpressions, toExpression_eraseSpans tree h.1,
      toExpressions_eraseAllSpans trees h.2]

end

/-- Spans do not show in the function of a well-formed definition. -/
theorem toJavaScript_eraseSpans (h : tree.WellFormed) :
    tree.eraseSpans.toJavaScript = tree.toJavaScript := by
  cases tree with
  | define name params body span =>
    have hparams : (params.map Ident.eraseSpan).map Ident.text = params.map Ident.text :=
      List.map_map
    rw [eraseSpans, toJavaScript, toJavaScript, toExpression_eraseSpans body h.2.2, hparams]
    rfl
  | call _ _ _ | var _ | int _ _ => exact h.elim

theorem toSource_eq_iff (h : tree.WellFormed) (h' : tree'.WellFormed) :
    tree.toSource = tree'.toSource ↔ tree.eraseSpans = tree'.eraseSpans := by
  constructor
  · intro heq
    have hspells := spells_toSource h
    rw [heq] at hspells
    exact eq_of_spells hspells (spells_toSource h')
  · intro heq
    rw [← toSource_eraseSpans tree, heq, toSource_eraseSpans]

theorem toJavaScript_eq_iff (h : tree.WellFormed) (h' : tree'.WellFormed) :
    tree.toJavaScript = tree'.toJavaScript ↔ tree.eraseSpans = tree'.eraseSpans := by
  constructor
  · intro heq
    obtain ⟨head, value, hgenerated⟩ := exists_generated h
    obtain ⟨head', value', hgenerated'⟩ := exists_generated h'
    rw [hgenerated.toJavaScript_eq, hgenerated'.toJavaScript_eq, Except.ok.injEq,
      functionText_inj hgenerated.plain_head hgenerated.plain_value] at heq
    obtain ⟨rfl, rfl⟩ := heq
    exact eq_of_spells hgenerated.spells hgenerated'.spells
  · intro heq
    rw [← toJavaScript_eraseSpans h, heq, toJavaScript_eraseSpans h']

end Erasure

end OneDef.Tree
