import Playground.Proofs.Erasure.Nesting

/-!
# The stack of open brackets

`stackThrough` follows the stack that the pairing of brackets keeps, token by token, up to any of
them. The pairing goes on from there whatever follows (`exists_pairBrackets_append`). What one token
does to the stack is a `StackStep`, so a token on the stack has been there, on top of the same
others, since it was opened (`exists_inner_of_stackAt`).
-/

namespace Playground

/-- The open brackets after one more token, or the error that the pairing stops with. -/
def stackAfter (opened : List IndexedToken) (index : Nat) (token : Token) :
    Except SyntaxError (List IndexedToken) :=
  match token.bracketRole with
  | .neutral => .ok opened
  | .opens => .ok (⟨index, token⟩ :: opened)
  | .closes =>
    match opened with
    | [] => .error ⟨.unexpectedCloser token.text, token.start⟩
    | innermost :: outer =>
      match innermost.token.closer? with
      | none => .error ⟨.closerInSubstitution token.text, token.start⟩
      | some expected =>
        if expected = token.text then .ok outer
        else .error ⟨.mismatchedCloser token.text expected, token.start⟩
  | .resumes continues =>
    match opened with
    | [] => .error ⟨.unexpectedCloser "\x7d", token.start⟩
    | innermost :: outer =>
      if innermost.token.opensSubstitution then
        .ok (if continues then ⟨index, token⟩ :: outer else outer)
      else .error ⟨.unclosedBracket innermost.token.text, innermost.token.start⟩

/-- The open brackets after some tokens, the first of which has an index. -/
def stackThrough (opened : List IndexedToken) (index : Nat) :
    List Token → Except SyntaxError (List IndexedToken)
  | [] => .ok opened
  | token :: rest => do
    let next ← stackAfter opened index token
    stackThrough next (index + 1) rest

/-- The pair that a token completes. -/
def completedPair (opened : List IndexedToken) (index : Nat) (token : Token) : List (Nat × Nat) :=
  match token.bracketRole, opened with
  | .closes, innermost :: _ => [(innermost.index, index)]
  | _, _ => []

/-- What a token does to the stack. -/
inductive StackStep (index : Nat) (token : Token) :
    List IndexedToken → List IndexedToken → Prop where
  | neutral {opened} (role : token.bracketRole = .neutral) : StackStep index token opened opened
  | opens {opened} (role : token.bracketRole = .opens) :
      StackStep index token opened (⟨index, token⟩ :: opened)
  | closes {innermost outer} (role : token.bracketRole = .closes)
      (closer : innermost.token.closer? = some token.text) :
      StackStep index token (innermost :: outer) outer
  | continues {part outer} (role : token.bracketRole = .resumes true)
      (opens : part.token.opensSubstitution = true) :
      StackStep index token (part :: outer) (⟨index, token⟩ :: outer)
  | ends {part outer} (role : token.bracketRole = .resumes false)
      (opens : part.token.opensSubstitution = true) :
      StackStep index token (part :: outer) outer

section Stack

variable {opened next : List IndexedToken} {index : Nat} {token : Token} {error : SyntaxError}
  {earlier later : List Token}

theorem stackStep_of_stackAfter (found : stackAfter opened index token = .ok next) :
    StackStep index token opened next := by
  unfold stackAfter at found
  cases role : token.bracketRole with
  | neutral =>
    simp only [role] at found
    cases found
    exact .neutral role
  | opens =>
    simp only [role] at found
    cases found
    exact .opens role
  | closes =>
    simp only [role] at found
    cases opened with
    | nil => contradiction
    | cons innermost outer =>
      simp only at found
      split at found
      case h_1 => contradiction
      case h_2 expected closer =>
        split at found
        case isFalse => contradiction
        case isTrue same =>
          cases found
          exact .closes role (same ▸ closer)
  | resumes continues =>
    simp only [role] at found
    cases opened with
    | nil => contradiction
    | cons part outer =>
      simp only at found
      split at found
      case isFalse => contradiction
      case isTrue opens =>
        cases found
        cases continues with
        | true => exact .continues role opens
        | false => exact .ends role opens

theorem map_nil_append (result : Except SyntaxError (List (Nat × Nat))) :
    ([] ++ ·) <$> result = result := by
  cases result <;> rfl

/-- The pairing takes one step of the stack for each token. -/
theorem pairBrackets_cons (opened : List IndexedToken) (index : Nat) (token : Token)
    (rest : List Token) : pairBrackets opened index (token :: rest) =
      stackAfter opened index token >>= fun next =>
        (completedPair opened index token ++ ·) <$> pairBrackets next (index + 1) rest := by
  simp only [pairBrackets, stackAfter, completedPair]
  cases role : token.bracketRole with
  | neutral | opens => exact (map_nil_append _).symm
  | closes =>
    cases opened with
    | nil => rfl
    | cons innermost outer =>
      dsimp only
      cases innermost.token.closer? with
      | none => rfl
      | some expected =>
        dsimp only
        split
        · change _ = ([(innermost.index, index)] ++ ·) <$> pairBrackets outer (index + 1) rest
          cases pairBrackets outer (index + 1) rest <;> rfl
        · rfl
  | resumes continues =>
    cases opened with
    | nil => rfl
    | cons part outer =>
      dsimp only
      split
      · exact (map_nil_append _).symm
      · rfl

/-- The pairing goes on from the stack that some tokens have left, whatever follows them. -/
theorem exists_pairBrackets_append (reached : stackThrough opened index earlier = .ok next) :
    ∃ pairs, ∀ later, pairBrackets opened index (earlier ++ later) =
      (pairs ++ ·) <$> pairBrackets next (index + earlier.length) later := by
  induction earlier generalizing opened index with
  | nil =>
    cases reached
    refine ⟨[], fun later => ?_⟩
    exact (map_nil_append _).symm
  | cons token earlier inductionHypothesis =>
    obtain ⟨between, first, others⟩ := bind_eq_ok_iff.mp reached
    obtain ⟨pairs, goesOn⟩ := inductionHypothesis others
    refine ⟨completedPair opened index token ++ pairs, fun later => ?_⟩
    have length : index + (token :: earlier).length = index + 1 + earlier.length := by
      rw [List.length_cons]
      omega
    rw [List.cons_append, pairBrackets_cons, first, length]
    change _ <$> pairBrackets between (index + 1) (earlier ++ later) = _
    rw [goesOn]
    cases pairBrackets next (index + 1 + earlier.length) later with
    | error => rfl
    | ok others => exact congrArg Except.ok (List.append_assoc ..).symm

/-- The pairing stops where the stack does. -/
theorem pairBrackets_append_of_error (stops : stackThrough opened index earlier = .error error)
    (later : List Token) : pairBrackets opened index (earlier ++ later) = .error error := by
  induction earlier generalizing opened index with
  | nil => cases stops
  | cons token earlier inductionHypothesis =>
    rw [List.cons_append, pairBrackets_cons]
    rw [stackThrough] at stops
    cases first : stackAfter opened index token with
    | error =>
      rw [first] at stops
      cases stops
      rfl
    | ok between =>
      rw [first] at stops
      change _ <$> pairBrackets between (index + 1) (earlier ++ later) = _
      rw [inductionHypothesis stops]
      rfl

/-- The stack after some tokens is that after one more token at the end. -/
theorem stackThrough_concat (opened : List IndexedToken) (index : Nat) (earlier : List Token)
    (token : Token) : stackThrough opened index (earlier ++ [token]) =
      stackThrough opened index earlier >>= fun next =>
        stackAfter next (index + earlier.length) token := by
  induction earlier generalizing opened index with
  | nil =>
    change (stackAfter opened index token >>= fun next => .ok next) = stackAfter opened index token
    cases stackAfter opened index token <;> rfl
  | cons first earlier inductionHypothesis =>
    have length : index + (first :: earlier).length = index + 1 + earlier.length := by
      rw [List.length_cons]
      omega
    rw [List.cons_append, stackThrough, stackThrough, length]
    cases stackAfter opened index first with
    | error => rfl
    | ok between => exact inductionHypothesis between (index + 1)

end Stack

/-! ## The stack at an index -/

/-- The brackets that are open before the token at an index. -/
def stackAt (tokens : List Token) (index : Nat) : Except SyntaxError (List IndexedToken) :=
  stackThrough [] 0 (tokens.take index)

section Index

variable {tokens : List Token} {index : Nat} {token : Token} {opened next : List IndexedToken}
  {pairs : List (Nat × Nat)}

theorem stackAt_succ (found : tokens[index]? = some token) :
    stackAt tokens (index + 1) = stackAt tokens index >>= fun opened =>
      stackAfter opened index token := by
  have length : (tokens.take index).length = index := by
    rw [List.length_take]
    exact Nat.min_eq_left (Nat.le_of_lt (List.getElem?_eq_some_iff.mp found).1)
  rw [stackAt, List.take_add_one, found, Option.toList_some, stackThrough_concat, length,
    Nat.zero_add]
  rfl

/-- Where the pairing succeeds, there is a stack before every token. -/
theorem exists_stackAt (paired : pairBrackets [] 0 tokens = .ok pairs) (index : Nat) :
    ∃ opened, stackAt tokens index = .ok opened := by
  cases found : stackAt tokens index with
  | ok opened => exact ⟨opened, rfl⟩
  | error error =>
    have stops := pairBrackets_append_of_error found (tokens.drop index)
    rw [List.take_append_drop, paired] at stops
    contradiction

/-- Past the last token the stack stays as it is. -/
theorem stackAt_succ_of_none (past : tokens[index]? = none) :
    stackAt tokens (index + 1) = stackAt tokens index := by
  rw [stackAt, List.take_add_one, past, Option.toList_none, List.append_nil, stackAt]

theorem exists_stackStep (paired : pairBrackets [] 0 tokens = .ok pairs)
    (found : tokens[index]? = some token) (reached : stackAt tokens index = .ok opened) :
    ∃ next, stackAt tokens (index + 1) = .ok next ∧ StackStep index token opened next := by
  obtain ⟨next, reachedNext⟩ := exists_stackAt paired (index + 1)
  refine ⟨next, reachedNext, stackStep_of_stackAfter ?_⟩
  rw [stackAt_succ found, reached] at reachedNext
  exact reachedNext

theorem StackStep.length_eq (step : StackStep index token opened next) :
    next.length = token.bracketRole.depthAfter opened.length := by
  cases step with
  | neutral role | opens role | closes role | continues role | ends role =>
    rw [role]
    rfl

/-- The depth is the height of the stack. -/
theorem length_of_stackAt (paired : pairBrackets [] 0 tokens = .ok pairs)
    (reached : stackAt tokens index = .ok opened) : opened.length = depthAt tokens index := by
  induction index generalizing opened with
  | zero => cases reached; rfl
  | succ index inductionHypothesis =>
    obtain ⟨before, reachedBefore⟩ := exists_stackAt paired index
    cases found : tokens[index]? with
    | none =>
      rw [stackAt_succ_of_none found] at reached
      rw [inductionHypothesis reached, depthAt, depthAt, List.take_add_one, found,
        Option.toList_none, List.append_nil]
    | some token =>
      obtain ⟨next, reachedNext, step⟩ := exists_stackStep paired found reachedBefore
      obtain rfl := Except.ok.inj (reachedNext.symm.trans reached)
      rw [step.length_eq, depthAt_succ found, inductionHypothesis reachedBefore]

/-- What is open stands earlier. -/
theorem index_lt_of_stackAt (paired : pairBrackets [] 0 tokens = .ok pairs)
    (reached : stackAt tokens index = .ok opened) : ∀ entry ∈ opened, entry.index < index := by
  induction index generalizing opened with
  | zero => cases reached; simp
  | succ index inductionHypothesis =>
    obtain ⟨before, reachedBefore⟩ := exists_stackAt paired index
    have later : ∀ entry ∈ before, entry.index < index + 1 := fun entry member =>
      Nat.lt_succ_of_lt (inductionHypothesis reachedBefore entry member)
    cases found : tokens[index]? with
    | none =>
      rw [stackAt_succ_of_none found] at reached
      obtain rfl := Except.ok.inj (reachedBefore.symm.trans reached)
      exact later
    | some token =>
      obtain ⟨next, reachedNext, step⟩ := exists_stackStep paired found reachedBefore
      obtain rfl := Except.ok.inj (reachedNext.symm.trans reached)
      cases step with
      | neutral => exact later
      | opens => exact List.forall_mem_cons.mpr ⟨Nat.lt_succ_self _, later⟩
      | closes | ends => exact (List.forall_mem_cons.mp later).2
      | continues =>
        exact List.forall_mem_cons.mpr ⟨Nat.lt_succ_self _, (List.forall_mem_cons.mp later).2⟩

/-- A bracket that is open has been open, inside the same others, since it was opened. -/
theorem exists_inner_of_stackAt {inner outer : List IndexedToken} {entry : IndexedToken}
    {between : Nat} (paired : pairBrackets [] 0 tokens = .ok pairs)
    (reached : stackAt tokens index = .ok (inner ++ entry :: outer))
    (after : entry.index < between) (before : between ≤ index) :
    ∃ inner, stackAt tokens between = .ok (inner ++ entry :: outer) := by
  induction index generalizing inner with
  | zero =>
    obtain rfl := Nat.le_zero.mp before
    exact ⟨inner, reached⟩
  | succ index inductionHypothesis =>
    rcases Nat.eq_or_lt_of_le before with rfl | earlier
    · exact ⟨inner, reached⟩
    have earlier := Nat.le_of_lt_succ earlier
    cases found : tokens[index]? with
    | none =>
      rw [stackAt_succ_of_none found] at reached
      exact inductionHypothesis reached earlier
    | some token =>
      obtain ⟨opened, reachedBefore⟩ := exists_stackAt paired index
      obtain ⟨next, reachedNext, step⟩ := exists_stackStep paired found reachedBefore
      obtain rfl := Except.ok.inj (reachedNext.symm.trans reached)
      -- The entry is not the one that this token opens.
      have older : ∀ {below}, ⟨index, token⟩ :: below = inner ++ entry :: outer →
          ∃ rest, inner = ⟨index, token⟩ :: rest ∧ below = rest ++ entry :: outer := by
        intro below shape
        cases inner with
        | nil =>
          obtain ⟨rfl, -⟩ := List.cons.inj shape
          exact absurd after (Nat.not_lt.mpr earlier)
        | cons first inner =>
          obtain ⟨rfl, rest⟩ := List.cons.inj shape
          exact ⟨inner, rfl, rest⟩
      generalize shape : inner ++ entry :: outer = after at step
      cases step with
      | neutral => exact inductionHypothesis (shape ▸ reachedBefore) earlier
      | opens =>
        obtain ⟨rest, -, rfl⟩ := older shape.symm
        exact inductionHypothesis reachedBefore earlier
      | @closes innermost =>
        subst shape
        exact @inductionHypothesis (innermost :: inner) reachedBefore earlier
      | @continues part =>
        obtain ⟨rest, -, rfl⟩ := older shape.symm
        exact @inductionHypothesis (part :: rest) reachedBefore earlier
      | @ends part =>
        subst shape
        exact @inductionHypothesis (part :: inner) reachedBefore earlier

/-- What is innermost stays open, inside the same others, until then. -/
theorem exists_inner_of_innermost {outer : List IndexedToken} {entry : IndexedToken} {between : Nat}
    (paired : pairBrackets [] 0 tokens = .ok pairs)
    (reached : stackAt tokens index = .ok (entry :: outer)) (after : entry.index < between)
    (before : between ≤ index) : ∃ inner, stackAt tokens between = .ok (inner ++ entry :: outer) :=
  @exists_inner_of_stackAt _ _ _ [] _ _ _ paired reached after before

end Index

end Playground
