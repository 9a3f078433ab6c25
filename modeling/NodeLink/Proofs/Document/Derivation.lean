import NodeLink.Proofs.Document.Completeness

/-! # Parsing is derivation

A source parses exactly when scanning it gives no error and its tokens are those of a
derivation tree, and then the result is the document of the tree (`parse_iff_sentence`).  The
parser goes on after every syntax error that it meets, but no path of this recovery lets an error
pass: the tokens of any source, with or without errors of scanning, are parsed without a syntax
error only if they are a sentence. -/

namespace NodeLink

open NodeLink.Source
open NodeLink.Grammar (Sentence)

namespace Parse

/-- Tokens with proper quotes are read without errors exactly along a derivation tree. -/
theorem parseTokens_iff_sentence (source : String) {tokens : List Token} {document : Document}
    (hq : ∀ token ∈ tokens, ProperQuotes token.kind token.text.toList) :
    parseTokens source tokens = (document, []) ↔
      ∃ sentence : Sentence, sentence.tokens = tokens ∧ sentence.document = document := by
  constructor
  · intro h
    obtain ⟨hdoc, herrors⟩ := Prod.mk.inj h
    obtain ⟨sentence, hs, ht⟩ :=
      document_sound ⟨tokens, [], Site.atEnd source⟩ hq (List.reverse_eq_nil_iff.mp herrors)
    exact ⟨sentence, ht.symm, hs.symm.trans hdoc⟩
  · rintro ⟨sentence, rfl, rfl⟩
    simp [parseTokens, document_complete sentence hq]

end Parse

theorem Diagnostic.inOrder_eq_nil_iff {lexErrors : List LexError}
    {syntaxErrors : List SyntaxError} :
    Diagnostic.inOrder lexErrors syntaxErrors = [] ↔ lexErrors = [] ∧ syntaxErrors = [] := by
  rw [← List.length_eq_zero_iff, Diagnostic.inOrder, List.length_mergeSort]
  simp

theorem parse_eq_ok_iff {source : String} {document : Document} :
    parse source = .ok document ↔
      (tokenize source).errors = [] ∧
        parseTokens source (tokenize source).tokens = (document, []) := by
  cases hparsed : parseTokens source (tokenize source).tokens with
  | mk parsed errors =>
      simp only [parse, hparsed]
      split
      · next h =>
          obtain ⟨hlex, rfl⟩ := Diagnostic.inOrder_eq_nil_iff.mp h
          simp [hlex]
      · next h =>
          constructor
          · intro heq
            cases heq
          · rintro ⟨hlex, heq⟩
            obtain ⟨-, rfl⟩ := Prod.mk.inj heq
            exact absurd (Diagnostic.inOrder_eq_nil_iff.mpr ⟨hlex, rfl⟩) h

theorem exists_sentence_of_parse {source : String} {document : Document}
    (h : parse source = .ok document) :
    ∃ sentence : Sentence, sentence.tokens = (tokenize source).tokens ∧
      sentence.document = document := by
  have hq : ∀ token ∈ (tokenize source).tokens, ProperQuotes token.kind token.text.toList :=
    fun token h => properQuotes_of_mem_tokenize h
  exact (Parse.parseTokens_iff_sentence source hq).mp (parse_eq_ok_iff.mp h).2

/-- **Parsing is derivation**: a source parses to a document exactly when it scans without
errors and its tokens are a sentence that stands for the document, and whatever else is wrong
with a source, its tokens give no syntax error exactly when they are a sentence. -/
theorem parse_iff_sentence (source : String) :
    (∀ document, parse source = .ok document ↔
      (tokenize source).errors = [] ∧
        ∃ sentence : Sentence, sentence.tokens = (tokenize source).tokens ∧
          sentence.document = document) ∧
    ((parseTokens source (tokenize source).tokens).2 = [] ↔
      ∃ sentence : Sentence, sentence.tokens = (tokenize source).tokens) := by
  have hq : ∀ token ∈ (tokenize source).tokens, ProperQuotes token.kind token.text.toList :=
    fun token h => properQuotes_of_mem_tokenize h
  refine ⟨fun document => ?_, ?_⟩
  · rw [parse_eq_ok_iff, Parse.parseTokens_iff_sentence source hq]
  · constructor
    · intro h
      obtain ⟨sentence, ht, -⟩ := (Parse.parseTokens_iff_sentence source hq).mp (Prod.ext rfl h)
      exact ⟨sentence, ht⟩
    · rintro ⟨sentence, ht⟩
      have h := (Parse.parseTokens_iff_sentence source hq).mpr ⟨sentence, ht, rfl⟩
      rw [h]

end NodeLink
