import Playground.Proofs.Erasure.Conditional.Simple

/-!
# The program of a statement

A plain expression with its semicolon is a program that is read: its symbols are well nested, so
its brackets are matched, and its tokens are simple (`exists_stream_of_statement`).
-/

namespace Playground

theorem WellNested.append {first second : List BracketEvent} (one : WellNested first)
    (other : WellNested second) : WellNested (first ++ second) := by
  induction one with
  | nil => exact other
  | @pair enclosure inside after inner following _ inductionHypothesis =>
    simpa using @WellNested.pair enclosure _ _ inner inductionHypothesis

/-- What a symbol opens and closes. -/
def Symbol.bracketEvents (symbol : Symbol) : List BracketEvent :=
  Token.bracketEvents ⟨symbol.kind, symbol.text, 0, false⟩

theorem flatMap_bracketEvents (tokens : List Token) :
    tokens.flatMap Token.bracketEvents =
      (tokens.map Token.symbol).flatMap Symbol.bracketEvents := by
  rw [List.flatMap_map]
  rfl

/-- What a list of symbols opens and closes is well nested. -/
def WellBracketed (symbols : List Symbol) : Prop :=
  WellNested (symbols.flatMap Symbol.bracketEvents)

namespace WellBracketed

variable {first second : List Symbol}

theorem append (one : WellBracketed first) (other : WellBracketed second) :
    WellBracketed (first ++ second) := by
  rw [WellBracketed, List.flatMap_append]
  exact WellNested.append one other

theorem cons {symbol : Symbol} (neutral : symbol.bracketEvents = [])
    (rest : WellBracketed second) : WellBracketed (symbol :: second) := by
  rwa [WellBracketed, List.flatMap_cons, neutral, List.nil_append]

theorem parentheses (inner : WellBracketed first) :
    WellBracketed (.mark "(" :: (first ++ [.mark ")"])) := by
  have whole := @WellNested.pair .round _ _ inner .nil
  rw [WellBracketed, List.flatMap_cons, List.flatMap_append]
  exact whole

end WellBracketed

namespace Expression

theorem wellBracketed {rank : Rank} (expression : Expression rank) :
    WellBracketed expression.symbols := by
  have empty : WellBracketed [] := WellNested.nil
  induction expression with
  | name | string | number => exact empty.cons rfl
  | object _ inductionHypothesis | operand _ inductionHypothesis
  | last _ inductionHypothesis => exact inductionHypothesis
  | member _ property inductionHypothesis =>
    exact inductionHypothesis.append (.cons rfl (empty.cons rfl))
  | invoke _ inductionHypothesis => exact inductionHypothesis.append empty.parentheses
  | call _ _ one other => exact one.append other.parentheses
  | group _ inductionHypothesis => exact inductionHypothesis.parentheses
  | arrow _ _ inductionHypothesis => exact .cons rfl (.cons rfl inductionHypothesis)
  | conditional _ _ _ one two three =>
    exact one.append (.cons rfl (two.append (.cons rfl three)))
  | more _ _ one other => exact one.append (.cons rfl other)

/-- The statement of an expression is read as a program of simple tokens. -/
theorem exists_stream_of_statement (expression : Expression .expression) (spaces : Nat) :
    ∃ stream, TokenStream.ofSource (expression.statement spaces).toList = .ok stream ∧
      stream.Simple ∧ stream.symbols = expression.symbols ++ [.mark ";"] := by
  have reads : Reads (expression.text spaces ++ [';']) (expression.symbols ++ [.mark ";"]) :=
    expression.reads spaces (mayFollow_of_head _ (by decide)) (.single (by decide) .nil)
  obtain ⟨tokens, tokenized, symbols⟩ := reads.tokens 0 none
  have tiles : Tiles 0 _ tokens := tiles_of_tokensFrom tokenized
  have spelled : ∀ token ∈ tokens, token.WellSpelled :=
    fun token member => (tiles.of_mem member).2.2.2
  have bracketed : WellBracketed (expression.symbols ++ [.mark ";"]) :=
    expression.wellBracketed.append (WellBracketed.cons rfl WellNested.nil)
  obtain ⟨partners, matched⟩ := (matchBrackets_iff spelled).mpr (by
    rw [flatMap_bracketEvents, symbols]
    exact bracketed)
  let stream : TokenStream := ⟨(expression.statement spaces).toList.toArray, tokens.toArray, partners⟩
  have read : TokenStream.ofSource (expression.statement spaces).toList = .ok stream := by
    refine TokenStream.ofSource_eq_ok_iff.mpr ⟨tokens, partners, ?_, matched, rfl⟩
    rwa [statement, String.toList_ofList]
  refine ⟨stream, read, ?_, symbols⟩
  obtain ⟨pairs, paired, table⟩ := bind_eq_ok_iff.mp matched
  cases table
  have partnered := partnered_of_pairBrackets spelled paired
  exact {
    nested := TokenStream.nested_of_ofSource read
    placed := TokenStream.placed_of_ofSource read
    listed := by
      rw [show stream.symbols = _ from symbols, List.forall_mem_append, List.forall_mem_singleton]
      exact ⟨expression.simple, Symbol.simple_mark (by decide)⟩
    arrows := by
      rw [show stream.symbols = _ from symbols]
      exact expression.arrowsLead.apart arrowsLead_nil (by decide)
    opened := fun {index} opens => by
      have kind := (TokenStream.placed_of_ofSource read).kind?_of_mark opens (by decide)
      obtain ⟨token, found, isMark⟩ := Option.map_eq_some_iff.mp kind
      have text := (TokenStream.is_iff.mp opens).2
      simp only [TokenStream.text, found] at text
      have listed : tokens[index]? = some token := by
        simpa [TokenStream.get?, stream] using found
      obtain ⟨partner, here⟩ := (partnered.brackets index).mpr
        ⟨token, listed, isMark, by simp [text]⟩
      refine ⟨partner, Option.filter_eq_some_iff.mpr ⟨?_, ?_⟩⟩
      · exact Option.join_eq_some_iff.mpr here
      · exact decide_eq_true (partnered.forward here listed (by simp [text])) }

end Expression

end Playground
