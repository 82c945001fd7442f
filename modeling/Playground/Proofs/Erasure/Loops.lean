import Playground.Proofs.Erasure.Visits.Behind

/-!
# Loops that make progress

The walkers of lists are loops: a turn either has the result or hands the index of the next turn to
what is left. Their definitions stop where a turn has not gone further, so that they end whatever
the turns are like. `Loops` says that this is never what ends them: a loop is no more than what its
turns make of it, and every turn that is followed by another goes further. So there are no more
turns than indices before the limit (`Loops.count_le`).
-/

namespace Playground

/-- How a turn of a loop ends. -/
inductive Turn (σ α : Type) where
  /-- With the next turn, and what becomes of its result. -/
  | further (next : σ) (finish : α → α)
  /-- With the result. -/
  | done (result : α)

/-- What is left to do after a turn. -/
def Turn.resume {σ α : Type} (loop : σ → Except SyntaxError α) :
    Turn σ α → Except SyntaxError α
  | .further next finish => do
    let result ← loop next
    return finish result
  | .done result => return result

/-- A loop makes turns below a limit, each further than the one before, until one has the result. -/
structure Loops {σ α : Type} (position : σ → Nat) (limit : Nat)
    (turn : σ → Except SyntaxError (Turn σ α)) (loop : σ → Except SyntaxError α) : Prop where
  unfolds : ∀ state, loop state = turn state >>= Turn.resume loop
  forward : ∀ {state next finish}, turn state = .ok (.further next finish) →
    position state < limit ∧ position state < position next

/-- A number of turns lead from one to another. -/
inductive Turns {σ α : Type} (turn : σ → Except SyntaxError (Turn σ α)) : Nat → σ → σ → Prop where
  | refl {state} : Turns turn 0 state state
  | step {count first next last finish} (one : turn first = .ok (.further next finish))
      (others : Turns turn count next last) : Turns turn (count + 1) first last

/-- A loop makes no more turns than there are indices left. -/
theorem Loops.count_le {σ α : Type} {position : σ → Nat} {limit count : Nat}
    {turn : σ → Except SyntaxError (Turn σ α)} {loop : σ → Except SyntaxError α} {first last : σ}
    (loops : Loops position limit turn loop) (turns : Turns turn count first last) :
    count ≤ limit - position first := by
  induction turns with
  | refl => exact Nat.zero_le _
  | step one _ inductionHypothesis =>
    have forward := loops.forward one
    omega

namespace TokenStream

variable {stream : TokenStream} {walk : Walk} {limit close : Nat}

/-! ## Searches -/

section Searches

variable (stream)

/-- A turn of a run. -/
def runTurn (accepts : Nat → Bool) (limit index : Nat) : Except SyntaxError (Turn Nat Nat) :=
  if index < limit ∧ accepts index = true then return .further (index + 1) id
  else return .done index

/-- A turn of a search. -/
def seekTurn (found : Nat → Bool) (limit index : Nat) : Except SyntaxError (Turn Nat Nat) :=
  if index < limit ∧ found index = false then return .further (stream.skip index) id
  else return .done index

/-- A turn of the search for the end of a declaration that began at `first`. -/
def statementTurn (first limit index : Nat) : Except SyntaxError (Turn Nat Nat) :=
  if index < limit then
    if stream.endsDeclaration first index then return .done index
    else if stream.is index ";" then return .done (index + 1)
    else return .further (stream.skip index) id
  else return .done limit

/-- The end of a declaration that began at `first`, searched for from an index on. -/
def statementEndFrom (first limit index : Nat) : Nat :=
  let stop :=
    stream.seek (fun index => stream.endsDeclaration first index || stream.is index ";") limit index
  if limit ≤ stop then limit
  else if stream.endsDeclaration first stop then stop
  else stop + 1

/-- A turn of the search for a module name. -/
def moduleTurn (index : Nat) : Except SyntaxError (Turn Nat Nat) :=
  if index < stream.size then
    if stream.kind? index == some .string then return .done (stream.afterSemicolon (index + 1))
    else return .further (stream.skip index) id
  else return .done index

end Searches

theorem loops_runEnd (accepts : Nat → Bool) (limit : Nat) :
    Loops id limit (runTurn accepts limit) fun index => .ok (runEnd accepts limit index) where
  unfolds index := by
    rw [runEnd, runTurn]
    split
    · split
      · rw [if_pos ⟨‹_›, ‹_›⟩]
        rfl
      · rw [if_neg fun both => ‹¬_› both.2]
        rfl
    · rw [if_neg fun both => ‹¬_› both.1]
      rfl
  forward {index next finish} found := by
    unfold runTurn at found
    split at found
    · cases found
      exact ⟨(‹_ ∧ _›).1, Nat.lt_succ_self index⟩
    · cases found

theorem loops_seek (found : Nat → Bool) (limit : Nat) :
    Loops id limit (stream.seekTurn found limit)
      fun index => .ok (stream.seek found limit index) where
  unfolds index := by
    rw [seek, seekTurn]
    split
    · split
      · rw [if_neg fun both => Bool.false_ne_true (both.2.symm.trans ‹_›)]
        rfl
      · rw [if_pos ⟨‹_›, Bool.eq_false_iff.mpr ‹_›⟩]
        rfl
    · rw [if_neg fun both => ‹¬_› both.1]
      rfl
  forward {index next finish} found := by
    unfold seekTurn at found
    split at found
    · cases found
      exact ⟨(‹_ ∧ _›).1, stream.lt_skip index⟩
    · cases found

theorem loops_statementEnd (first limit : Nat) :
    Loops id limit (stream.statementTurn first limit)
      fun index => .ok (stream.statementEndFrom first limit index) where
  unfolds index := by
    unfold statementTurn
    split
    case isFalse outside =>
      have ended : limit ≤ stream.seek
          (fun index => stream.endsDeclaration first index || stream.is index ";") limit index :=
        Nat.le_trans (Nat.le_of_not_lt outside) (stream.le_seek ..)
      simp only [statementEndFrom, if_pos ended]
      rfl
    case isTrue inside =>
      split
      case isTrue ends =>
        simp only [statementEndFrom, seek_eq_self, ends, Bool.true_or, if_true,
          if_neg (Nat.not_le_of_lt inside)]
        rfl
      case isFalse goesOn =>
        split
        case isTrue semicolon =>
          simp only [statementEndFrom, seek_eq_self, semicolon, Bool.or_true, goesOn,
            if_neg (Nat.not_le_of_lt inside)]
          rfl
        case isFalse other =>
          have passed : (stream.endsDeclaration first index || stream.is index ";") = false := by
            rw [Bool.eq_false_iff.mpr goesOn, Bool.eq_false_iff.mpr other, Bool.or_false]
          have further := @seek_eq_seek_skip stream
            (fun index => stream.endsDeclaration first index || stream.is index ";") limit index
            inside passed
          simp only [statementEndFrom, further]
          rfl
  forward {index next finish} found := by
    unfold statementTurn at found
    split at found
    case isFalse => cases found
    case isTrue inside =>
      split at found
      · cases found
      split at found
      · cases found
      · cases found
        exact ⟨inside, stream.lt_skip index⟩

theorem loops_moduleClauseEnd :
    Loops id stream.size stream.moduleTurn fun index => .ok (stream.moduleClauseEnd index) where
  unfolds index := by
    unfold moduleTurn
    split
    case isFalse outside =>
      have ended : ¬stream.seek (fun index => stream.kind? index == some .string) stream.size
          index < stream.size :=
        Nat.not_lt_of_le (Nat.le_trans (Nat.le_of_not_lt outside) (stream.le_seek ..))
      rw [moduleClauseEnd, if_neg ended, seek, dif_neg outside]
      rfl
    case isTrue inside =>
      split
      case isTrue string =>
        rw [moduleClauseEnd, seek_eq_self string, if_pos inside]
        rfl
      case isFalse other =>
        rw [moduleClauseEnd, seek_eq_seek_skip inside (Bool.eq_false_iff.mpr other)]
        rfl
  forward {index next finish} found := by
    unfold moduleTurn at found
    split at found
    case isFalse => cases found
    case isTrue inside =>
      split at found
      · cases found
      · cases found
        exact ⟨inside, stream.lt_skip index⟩

/-! ## Enumerations -/

/-- A turn of the members of an enumeration. -/
def enumTurn (stream : TokenStream) (enumName : String) (close : Nat) :
    Nat × NextMember → Except SyntaxError (Turn (Nat × NextMember) String)
  | (index, value) =>
    if index < close then do
      let member ← stream.enumMember enumName index close value
      if stream.is member.stop "," then
        return .further (member.stop + 1, member.following) (member.statement ++ ·)
      else if member.stop < close then stream.fail member.stop .expectedEnumSeparator
      else return .further (member.stop, member.following) (member.statement ++ ·)
    else return .done ""

theorem lt_of_enumMember {enumName : String} {index : Nat} {value : NextMember}
    {member : LoweredMember} (found : stream.enumMember enumName index close value = .ok member) :
    index < member.stop := by
  obtain ⟨key, _, rest⟩ := bind_eq_ok_iff.mp found
  split at rest
  case isTrue =>
    have ended : index + 2 ≤ stream.memberValueEnd (index + 2) close := stream.le_seek ..
    dsimp only at rest
    split at rest
    · contradiction
    · cases rest
      unfold initializedMember
      split
      · exact Nat.lt_of_succ_lt ended
      · split <;> exact Nat.lt_of_succ_lt ended
  case isFalse =>
    unfold uninitializedMember at rest
    split at rest
    · cases rest
      exact Nat.lt_succ_self index
    · cases rest
      exact Nat.lt_succ_self index
    · contradiction

theorem loops_enumMembersFrom (enumName : String) (close : Nat) :
    Loops Prod.fst close (stream.enumTurn enumName close)
      fun state => stream.enumMembersFrom enumName state.1 close state.2 where
  unfolds state := by
    obtain ⟨index, value⟩ := state
    rw [enumMembersFrom, enumTurn]
    split
    case isFalse => rfl
    case isTrue =>
      rw [bind_assoc]
      refine bind_congr_of_ok fun member found => ?_
      have later := lt_of_enumMember found
      by_cases comma : stream.is member.stop "," = true
      · rw [dif_pos ⟨Nat.le_of_lt later, comma⟩, if_pos comma]
        rfl
      · rw [dif_neg fun both => comma both.2, if_neg comma]
        split
        · rfl
        · change _ = stream.enumMembersFrom enumName member.stop close member.following >>= _
          rw [enumMembersFrom, dif_neg ‹_›]
          exact congrArg Except.ok (String.append_empty ..).symm
  forward {state next finish} found := by
    obtain ⟨index, value⟩ := state
    rw [enumTurn] at found
    split at found
    case isFalse => cases found
    case isTrue inside =>
      obtain ⟨member, foundMember, rest⟩ := bind_eq_ok_iff.mp found
      have later := lt_of_enumMember foundMember
      split at rest
      · cases rest
        exact ⟨inside, Nat.lt_succ_of_lt later⟩
      split at rest
      · contradiction
      · cases rest
        exact ⟨inside, later⟩

/-! ## Bindings, classes and walks -/

section Turns

variable (stream) (walk)

/-- A turn of a list of types. -/
def typeTurn (index : Nat) : Except SyntaxError (Turn Nat Nat) := do
  let stop ← stream.expectType index
  if stream.is stop "," then return .further (stop + 1) id else return .done stop

/-- A turn of a parameter list. -/
def parameterTurn (close index : Nat) : Except SyntaxError (Turn Nat ParameterList) :=
  if index < close then
    if stream.isReceiver index close then do
      let receiver ← stream.receiverParameter index
      return .further receiver.next (·.preceded receiver.edits)
    else do
      let one ← stream.parameter walk index close
      if stream.is one.progress.next "," then return .further (one.progress.next + 1) (.cons one)
      else if one.progress.next < close then
        stream.fail one.progress.next .expectedParameterEnd
      else return .further one.progress.next (.cons one)
  else return .done ⟨[], []⟩

/-- A turn of a variable declaration. -/
def variableTurn (index : Nat) : Except SyntaxError (Turn Nat Progress) := do
  match ← stream.variableTarget walk index with
  | none => return .done (.still index)
  | some target =>
    let one ← stream.variableFrom walk target
    if stream.is one.next "," then return .further (one.next + 1) (·.preceded one.edits)
    else return .done one

/-- A turn of the head of a derived class. -/
def heritageTurn (index : Nat) : Except SyntaxError (Turn Nat Progress) :=
  if index < stream.size then
    if stream.is index "\x7b" || stream.is index "implements" then return .done (.still index)
    else do
      let part ← stream.heritagePart walk index
      return .further part.next (·.preceded part.edits)
  else return .done (.still index)

/-- A turn of the body of a class. -/
def memberTurn (close : Nat) (derived : Bool) (index : Nat) :
    Except SyntaxError (Turn Nat (List Edit)) :=
  if index < close then do
    let member ← stream.classMember walk index close derived
    return .further member.next (member.edits ++ ·)
  else return .done []

/-- A turn of the walk that began at `first`. -/
def walkTurn (first : Nat) (ending : WalkEnd) (index : Nat) :
    Except SyntaxError (Turn Nat Progress) :=
  if index < ending.limit ∧ index < stream.size then
    if stream.endsBefore first index ending then return .done (.still index)
    else do
      let one ← stream.step stream.nestedWalk index
      return .further one.next (·.preceded one.edits)
  else return .done (.still index)

end Turns

section Walks

variable (nested : stream.Nested) (placed : stream.Placed)

include nested placed

theorem loops_typeListEnd : Loops id stream.size stream.typeTurn stream.typeListEnd where
  unfolds index := by
    rw [typeListEnd, typeTurn, bind_assoc]
    refine bind_congr_of_ok fun stop found => ?_
    have passed := ((passes_of_expectType placed found).balanced nested).ordered
    by_cases comma : stream.is stop "," = true
    · rw [dif_pos ⟨passed, comma⟩, if_pos comma]
      change _ = stream.typeListEnd (stop + 1) >>= fun result => pure (id result)
      cases stream.typeListEnd (stop + 1) <;> rfl
    · rw [dif_neg fun both => comma both.2, if_neg comma]
      rfl
  forward {index next finish} found := by
    obtain ⟨stop, foundStop, rest⟩ := bind_eq_ok_iff.mp found
    have passed := ((passes_of_expectType placed foundStop).balanced nested).ordered
    split at rest
    case isTrue comma =>
      cases rest
      exact ⟨Nat.lt_of_le_of_lt passed (lt_size_of_is comma), Nat.lt_succ_of_le passed⟩
    case isFalse => cases rest

theorem loops_heritageFrom : Loops id stream.size (stream.heritageTurn walk)
    (stream.heritageFrom walk) where
  unfolds index := by
    rw [heritageFrom, heritageTurn]
    split
    case isFalse => rfl
    case isTrue =>
      split
      case isTrue => rfl
      case isFalse =>
        rw [bind_assoc]
        refine bind_congr_of_ok fun part found => ?_
        rw [dif_pos (lt_of_heritagePart nested placed found)]
        rfl
  forward {index next finish} found := by
    unfold heritageTurn at found
    split at found
    case isFalse => cases found
    case isTrue inside =>
      split at found
      case isTrue => cases found
      case isFalse =>
        obtain ⟨part, foundPart, result⟩ := bind_eq_ok_iff.mp found
        cases result
        exact ⟨inside, lt_of_heritagePart nested placed foundPart⟩

section Handed

variable (advances : walk.Advances)

include advances

theorem loops_parametersFrom (close : Nat) : Loops id close (stream.parameterTurn walk close)
    fun index => stream.parametersFrom walk index close where
  unfolds index := by
    rw [parametersFrom, parameterTurn]
    split
    case isFalse => rfl
    case isTrue =>
      split
      case isTrue =>
        rw [bind_assoc]
        refine bind_congr_of_ok fun receiver found => ?_
        rw [dif_pos (lt_of_receiverParameter nested placed found)]
        rfl
      case isFalse =>
        rw [bind_assoc]
        refine bind_congr_of_ok fun one found => ?_
        have passed := le_of_parameter nested placed advances found
        by_cases comma : stream.is one.progress.next "," = true
        · rw [dif_pos ⟨passed, comma⟩, if_pos comma]
          rfl
        · rw [dif_neg fun both => comma both.2, if_neg comma]
          split
          · rfl
          · change _ = stream.parametersFrom walk one.progress.next close >>= _
            rw [parametersFrom, dif_neg ‹_›]
            rfl
  forward {index next finish} found := by
    unfold parameterTurn at found
    split at found
    case isFalse => cases found
    case isTrue inside =>
      split at found
      case isTrue =>
        obtain ⟨receiver, foundReceiver, result⟩ := bind_eq_ok_iff.mp found
        cases result
        exact ⟨inside, lt_of_receiverParameter nested placed foundReceiver⟩
      case isFalse =>
        obtain ⟨one, foundOne, rest⟩ := bind_eq_ok_iff.mp found
        have passed := le_of_parameter nested placed advances foundOne
        split at rest
        · cases rest
          exact ⟨inside, Nat.lt_succ_of_le passed⟩
        split at rest
        · contradiction
        · cases rest
          exact ⟨inside, Nat.lt_of_lt_of_le inside (Nat.le_of_not_lt ‹_›)⟩

theorem loops_variablesFrom : Loops id stream.size (stream.variableTurn walk)
    (stream.variablesFrom walk) where
  unfolds index := by
    rw [variablesFrom, variableTurn, bind_assoc]
    refine bind_congr_of_ok fun target? foundTarget => ?_
    cases target? with
    | none => rfl
    | some target =>
      dsimp only
      rw [bind_assoc]
      refine bind_congr_of_ok fun one found => ?_
      have named := lt_of_variableTarget foundTarget
      have passed := le_of_variableFrom nested placed advances found
      by_cases comma : stream.is one.next "," = true
      · rw [dif_pos ⟨Nat.le_trans (Nat.le_of_lt named) passed, comma⟩, if_pos comma]
        rfl
      · rw [dif_neg fun both => comma both.2, if_neg comma]
        rfl
  forward {index next finish} found := by
    obtain ⟨target?, foundTarget, rest⟩ := bind_eq_ok_iff.mp found
    cases target? with
    | none => cases rest
    | some target =>
      obtain ⟨one, foundOne, rest⟩ := bind_eq_ok_iff.mp rest
      have named := lt_of_variableTarget foundTarget
      have passed := le_of_variableFrom nested placed advances foundOne
      have later : index < one.next := Nat.lt_of_lt_of_le named passed
      split at rest
      case isTrue comma =>
        cases rest
        exact ⟨Nat.lt_trans later (lt_size_of_is comma), Nat.lt_succ_of_lt later⟩
      case isFalse => cases rest

theorem loops_classMembersFrom (close : Nat) (derived : Bool) :
    Loops id close (stream.memberTurn walk close derived)
      fun index => stream.classMembersFrom walk index close derived where
  unfolds index := by
    rw [classMembersFrom, memberTurn]
    split
    case isFalse => rfl
    case isTrue inside =>
      rw [bind_assoc]
      refine bind_congr_of_ok fun member found => ?_
      rw [dif_pos (lt_of_classMember nested placed advances inside found)]
      rfl
  forward {index next finish} found := by
    unfold memberTurn at found
    split at found
    case isFalse => cases found
    case isTrue inside =>
      obtain ⟨member, foundMember, result⟩ := bind_eq_ok_iff.mp found
      cases result
      exact ⟨inside, lt_of_classMember nested placed advances inside foundMember⟩

end Handed

/-- A step makes progress, also past the end of the program. -/
theorem lt_of_step_nestedWalk {index : Nat} {progress : Progress}
    (found : stream.step stream.nestedWalk index = .ok progress) : index < progress.next := by
  rcases Nat.lt_or_ge index stream.size with inside | outside
  · exact lt_of_step nested placed (advances_nestedWalk nested placed) inside found
  · have past : stream.kind? index = none := by
      rw [kind?, get?, Array.getElem?_eq_none outside, Option.map_none]
    rw [step, past] at found
    cases found
    exact Nat.lt_succ_self index

theorem loops_walkFrom (first : Nat) (ending : WalkEnd) :
    Loops id (min ending.limit stream.size) (stream.walkTurn first ending)
      fun index => stream.walkFrom first index ending where
  unfolds index := by
    by_cases goesOn : stream.GoesOn first index ending
    case pos =>
      rw [goesOn.walkFrom_eq, step_walkBehind nested placed, walkTurn,
        if_pos ⟨goesOn.before, goesOn.inside⟩, goesOn.unended, if_neg Bool.false_ne_true,
        bind_assoc]
      refine bind_congr_of_ok fun one found => ?_
      rw [if_pos (lt_of_step_nestedWalk nested placed found)]
      rfl
    case neg =>
      rw [walkFrom_of_not_goesOn goesOn, walkTurn]
      split
      case isFalse => rfl
      case isTrue inside =>
        split
        · rfl
        · exact absurd ⟨inside.1, inside.2, Bool.eq_false_iff.mpr ‹_›⟩ goesOn
  forward {index next finish} found := by
    unfold walkTurn at found
    split at found
    case isFalse => cases found
    case isTrue inside =>
      split at found
      case isTrue => cases found
      case isFalse =>
        obtain ⟨one, foundOne, result⟩ := bind_eq_ok_iff.mp found
        cases result
        exact ⟨Nat.lt_min.mpr inside, lt_of_step_nestedWalk nested placed foundOne⟩

end Walks

end TokenStream

end Playground
