import Mathlib.Data.List.Infix
import Mathlib.Data.List.Nodup
import Typings.Proofs.Hint.Acceptance
import Typings.Proofs.Hint.Spans

/-! Where the reading of a hint stops. The reader stands before the token that it rejects, and so
the error has the place of that token. Only a token that names no field of a record is passed before
it is rejected, and then the error has the place of the next one.
-/

namespace Typings.Hint

open Phrase

variable {n : Nat} {ts rest : List Token.Kind} {fault : Fault}

-----------------------------------------------------------------------------------------
-- Where faults stop
-----------------------------------------------------------------------------------------

/-- A reader of `ts` stops with a fault: some tokens have been passed, and what is rejected is the
first of the others, or the last that was passed if it names no field.
-/
inductive Fault.StopsIn (ts : List Token.Kind) : Fault → Prop
  | expected {passed rest} (wanted : Token.Kind) (split : passed ++ rest = ts)
    : StopsIn ts (.expected wanted rest)
  | noType {passed rest} (split : passed ++ rest = ts) : StopsIn ts (.noType rest)
  | noFieldName {passed token rest} (split : passed ++ token :: rest = ts)
    : StopsIn ts (.noFieldName token rest)
  | trailing {passed rest} (split : passed ++ rest = ts) : StopsIn ts (.trailing rest)

theorem Fault.StopsIn.of_suffix (stops : fault.StopsIn rest) (suffix : rest <:+ ts)
    : fault.StopsIn ts := by
  obtain ⟨front, rfl⟩ := suffix
  cases stops with
  | expected wanted split =>
      exact .expected wanted ((List.append_assoc ..).trans (congrArg _ split))
  | noType split => exact .noType ((List.append_assoc ..).trans (congrArg _ split))
  | noFieldName split => exact .noFieldName ((List.append_assoc ..).trans (congrArg _ split))
  | trailing split => exact .trailing ((List.append_assoc ..).trans (congrArg _ split))

/-- A reader of `ts` stops inside them, if it fails. -/
def StopsInside {α : Type} (ts : List Token.Kind) (reading : Reading n α) : Prop :=
  ∀ fault, reading = .error fault → fault.StopsIn ts

/-- What a reader leaves are the last of its tokens. -/
theorem Spelled.suffix {α β : Type} {tokens : α → List Token.Kind} {meaning : α → β}
    {reading : Reading n β} {read : Read n β} (spelled : Spelled tokens meaning ts reading)
    (accepted : reading = .ok read)
    : read.rest <:+ ts := by
  obtain ⟨phrase, split, -⟩ := spelled read accepted
  exact ⟨tokens phrase, split⟩

theorem SpelledOperand.suffix {read : Read ts.length TsType} (spelled : SpelledOperand ts)
    (accepted : readOperand ts = .ok read)
    : read.rest <:+ ts := by
  obtain ⟨phrase, split, -⟩ := spelled read accepted
  exact ⟨phrase.tokens, split⟩

theorem expect_stops {α : Type} {wanted : Token.Kind} {value : α} {h : ts.length < n}
    : StopsInside ts (expect wanted value ts h) := by
  intro fault rejected
  unfold expect at rejected
  split at rejected
  · split at rejected
    · cases rejected
    · cases rejected
      exact .expected wanted (List.nil_append _)
  · cases rejected
    exact .expected wanted (List.nil_append _)

-----------------------------------------------------------------------------------------
-- What a reader rejects
-----------------------------------------------------------------------------------------

/-- The readers stop inside whatever they are given, if that is fewer than `n` tokens. -/
structure StopsBelow (n : Nat) : Prop where
  marked : ∀ {ts}, ts.length < n → StopsInside ts (readMarked ts)
  union : ∀ {ts}, ts.length < n → StopsInside ts (readUnion ts)
  chain : ∀ {ts}, ts.length < n → StopsInside ts (readChain ts)
  alternatives : ∀ {ts}, ts.length < n → StopsInside ts (readAlternatives ts)
  operand : ∀ {ts}, ts.length < n → StopsInside ts (readOperand ts)
  moreTypes : ∀ {ts}, ts.length < n → StopsInside ts (readMoreTypes ts)
  arguments : ∀ {ts}, ts.length < n → StopsInside ts (readArguments ts)
  moreArguments : ∀ {ts}, ts.length < n → StopsInside ts (readMoreArguments ts)
  fields : ∀ {ts}, ts.length < n → StopsInside ts (readFields ts)
  moreFields : ∀ {ts}, ts.length < n → StopsInside ts (readMoreFields ts)

section step

variable (below : StopsBelow n) (short : ts.length ≤ n)

include below short

theorem readTypeArguments_stops : StopsInside ts (readTypeArguments ts) := by
  have spelled := spelledBelow (ts.length + 1)
  intro fault rejected
  unfold readTypeArguments at rejected
  split at rejected
  case h_3 => cases rejected
  -- with a point and without one
  all_goals
    rename_i rest
    simp only [List.length_cons] at short spelled
    suffices stops : fault.StopsIn rest by
      first
      | exact stops.of_suffix ⟨[.dot, .leftAngle], rfl⟩
      | exact stops.of_suffix ⟨[.leftAngle], rfl⟩
    split at rejected
    · rename_i first
      cases rejected
      exact below.union (by omega) _ first
    · rename_i type rest₁ h₁ first
      have after := (spelled.union (by omega)).suffix first
      split at rejected
      · rename_i second
        cases rejected
        exact (below.moreTypes (by omega) _ second).of_suffix after
      · rename_i types rest₂ h₂ second
        have behind := (spelled.moreTypes (by omega)).suffix second
        exact (expect_stops _ rejected).of_suffix (behind.trans after)

theorem readMoreTypes_stops : StopsInside ts (readMoreTypes ts) := by
  have spelled := spelledBelow (ts.length + 1)
  intro fault rejected
  unfold readMoreTypes at rejected
  split at rejected
  · rename_i rest
    have front : rest <:+ .comma :: rest := List.suffix_cons _ rest
    simp only [List.length_cons] at short spelled
    split at rejected
    · rename_i first
      cases rejected
      exact (below.union (by omega) _ first).of_suffix front
    · rename_i type rest₁ h₁ first
      have after := (spelled.union (by omega)).suffix first
      split at rejected
      · rename_i second
        cases rejected
        exact (below.moreTypes (by omega) _ second).of_suffix (after.trans front)
      · cases rejected
  · cases rejected

theorem readResult_stops : StopsInside ts (readResult ts) := by
  intro fault rejected
  unfold readResult at rejected
  split at rejected
  · rename_i rest
    simp only [List.length_cons] at short
    split at rejected
    · rename_i first
      cases rejected
      exact (below.operand (by omega) _ first).of_suffix (List.suffix_cons _ rest)
    · cases rejected
  · cases rejected

theorem readAtom_stops : StopsInside ts (readAtom ts) := by
  have spelled := spelledBelow (ts.length + 1)
  intro fault rejected
  unfold readAtom at rejected
  split at rejected
  case h_8 rest =>
    simp only [List.length_cons] at short spelled
    refine Fault.StopsIn.of_suffix ?_ (List.suffix_cons .leftParen rest)
    split at rejected
    · rename_i first
      cases rejected
      exact below.union (by omega) _ first
    · rename_i type rest₁ h₁ first
      exact (expect_stops _ rejected).of_suffix ((spelled.union (by omega)).suffix first)
  case h_9 rest =>
    simp only [List.length_cons] at short spelled
    refine Fault.StopsIn.of_suffix ?_ (List.suffix_cons .leftBrace rest)
    split at rejected
    · rename_i first
      cases rejected
      exact below.fields (by omega) _ first
    · rename_i members rest₁ h₁ first
      exact (expect_stops _ rejected).of_suffix ((spelled.fields (by omega)).suffix first)
  case h_10 rest =>
    simp only [List.length_cons] at short spelled
    suffices stops : fault.StopsIn rest from stops.of_suffix ⟨[.function, .leftParen], rfl⟩
    split at rejected
    · rename_i first
      cases rejected
      exact below.arguments (by omega) _ first
    · rename_i list rest₁ h₁ first
      have after := (spelled.arguments (by omega)).suffix first
      refine Fault.StopsIn.of_suffix ?_ after
      split at rejected
      · rename_i closing
        cases rejected
        exact expect_stops _ closing
      · rename_i sameList rest₂ h₂ closing
        obtain ⟨-, rfl⟩ := eq_of_expect closing
        split at rejected
        · rename_i second
          cases rejected
          refine (readResult_stops below ?_ _ second).of_suffix (List.suffix_cons _ _)
          simp only [List.length_cons] at h₁
          omega
        · cases rejected
  case h_12 text rest =>
    simp only [List.length_cons] at short
    split at rejected
    · rename_i first
      cases rejected
      exact (readTypeArguments_stops below (by omega) _ first).of_suffix (List.suffix_cons _ rest)
    · cases rejected
  case h_13 =>
    cases rejected
    exact .noType (List.nil_append _)
  all_goals cases rejected

theorem readOperand_stops : StopsInside ts (readOperand ts) := by
  intro fault rejected
  unfold readOperand at rejected
  split at rejected
  · rename_i rest
    simp only [List.length_cons] at short
    split at rejected
    · cases rejected
    · split at rejected
      · rename_i first
        cases rejected
        exact (below.operand (by omega) _ first).of_suffix (List.suffix_cons _ rest)
      · cases rejected
  · rename_i rest
    simp only [List.length_cons] at short
    split at rejected
    · rename_i first
      cases rejected
      exact (below.operand (by omega) _ first).of_suffix (List.suffix_cons _ rest)
    · cases rejected
  · split at rejected
    · rename_i first
      cases rejected
      exact readAtom_stops below short _ first
    · cases rejected

theorem readAlternatives_stops : StopsInside ts (readAlternatives ts) := by
  have spelled := spelledBelow (ts.length + 1)
  intro fault rejected
  unfold readAlternatives at rejected
  split at rejected
  · rename_i rest
    simp only [List.length_cons] at short spelled
    refine Fault.StopsIn.of_suffix ?_ (List.suffix_cons .pipe rest)
    split at rejected
    · rename_i first
      cases rejected
      exact below.operand (by omega) _ first
    · rename_i type rest₁ h₁ first
      split at rejected
      · rename_i second
        cases rejected
        exact (below.alternatives (by omega) _ second).of_suffix
          ((spelled.operand (by omega)).suffix first)
      · cases rejected
  · cases rejected

theorem readChain_stops : StopsInside ts (readChain ts) := by
  have spelled := spelledBelow (ts.length + 1)
  intro fault rejected
  unfold readChain at rejected
  split at rejected
  · rename_i first
    cases rejected
    exact readOperand_stops below short _ first
  · rename_i type rest₁ h₁ first
    split at rejected
    · rename_i second
      cases rejected
      exact (below.alternatives (by omega) _ second).of_suffix
        ((spelled.operand (Nat.lt_succ_self _)).suffix first)
    · cases rejected

theorem readUnion_stops : StopsInside ts (readUnion ts) := by
  intro fault rejected
  unfold readUnion at rejected
  split at rejected
  · rename_i rest
    simp only [List.length_cons] at short
    split at rejected
    · rename_i first
      cases rejected
      exact (below.chain (by omega) _ first).of_suffix (List.suffix_cons _ rest)
    · cases rejected
  · exact readChain_stops below short _ rejected

theorem readMarked_stops : StopsInside ts (readMarked ts) := by
  intro fault rejected
  unfold readMarked at rejected
  split at rejected
  · rename_i rest
    simp only [List.length_cons] at short
    split at rejected
    · cases rejected
    · split at rejected
      · rename_i first
        cases rejected
        exact (below.union (by omega) _ first).of_suffix (List.suffix_cons _ rest)
      · cases rejected
  · split at rejected
    · rename_i first
      cases rejected
      exact readUnion_stops below short _ first
    · cases rejected

theorem readArguments_stops : StopsInside ts (readArguments ts) := by
  have spelled := spelledBelow (ts.length + 1)
  intro fault rejected
  unfold readArguments at rejected
  split at rejected
  · cases rejected
  · cases rejected
  case h_5 =>
    split at rejected
    · rename_i first
      cases rejected
      exact readMarked_stops below short _ first
    · rename_i hint rest₁ h₁ first
      split at rejected
      · rename_i second
        cases rejected
        exact (below.moreArguments (by omega) _ second).of_suffix
          ((spelled.marked (Nat.lt_succ_self _)).suffix first)
      · cases rejected
  -- the receiver and what is constructed
  all_goals
    rename_i rest
    simp only [List.length_cons] at short spelled
    suffices stops : fault.StopsIn rest by
      first
      | exact stops.of_suffix ⟨[.name "this", .colon], rfl⟩
      | exact stops.of_suffix ⟨[.name "new", .colon], rfl⟩
    split at rejected
    · rename_i first
      cases rejected
      exact below.union (by omega) _ first
    · rename_i type rest₁ h₁ first
      split at rejected
      · rename_i second
        cases rejected
        exact (below.moreArguments (by omega) _ second).of_suffix
          ((spelled.union (by omega)).suffix first)
      · cases rejected

theorem readMoreArguments_stops : StopsInside ts (readMoreArguments ts) := by
  intro fault rejected
  unfold readMoreArguments at rejected
  split at rejected
  · rename_i rest
    simp only [List.length_cons] at short
    split at rejected
    · rename_i first
      cases rejected
      exact (below.arguments (by omega) _ first).of_suffix (List.suffix_cons _ rest)
    · cases rejected
  · cases rejected

theorem readFields_stops : StopsInside ts (readFields ts) := by
  have spelled := spelledBelow (ts.length + 1)
  intro fault rejected
  unfold readFields at rejected
  split at rejected
  · cases rejected
  · cases rejected
  · rename_i token rest _
    simp only [List.length_cons] at short spelled
    split at rejected
    · cases rejected
      exact .noFieldName (List.nil_append _)
    · split at rejected
      · rename_i rest
        simp only [List.length_cons] at short spelled
        suffices stops : fault.StopsIn rest from stops.of_suffix ⟨[token, .colon], rfl⟩
        split at rejected
        · rename_i first
          cases rejected
          exact below.marked (by omega) _ first
        · rename_i hint rest₁ h₁ first
          split at rejected
          · rename_i second
            cases rejected
            exact (below.moreFields (by omega) _ second).of_suffix
              ((spelled.marked (by omega)).suffix first)
          · cases rejected
      · split at rejected
        · rename_i first
          cases rejected
          exact (below.moreFields (by omega) _ first).of_suffix (List.suffix_cons _ _)
        · cases rejected

theorem readMoreFields_stops : StopsInside ts (readMoreFields ts) := by
  intro fault rejected
  unfold readMoreFields at rejected
  split at rejected
  · rename_i rest
    simp only [List.length_cons] at short
    split at rejected
    · rename_i first
      cases rejected
      exact (below.fields (by omega) _ first).of_suffix (List.suffix_cons _ rest)
    · cases rejected
  · cases rejected

end step

/-- The readers stop inside whatever they are given, by induction on the number of tokens. -/
theorem stopsBelow (n : Nat) : StopsBelow n := by
  induction n with
  | zero => constructor <;> intro ts short <;> exact absurd short (Nat.not_lt_zero _)
  | succ n ih =>
      constructor <;> intro ts short <;> replace short := Nat.le_of_lt_succ short
      · exact readMarked_stops ih short
      · exact readUnion_stops ih short
      · exact readChain_stops ih short
      · exact readAlternatives_stops ih short
      · exact readOperand_stops ih short
      · exact readMoreTypes_stops ih short
      · exact readArguments_stops ih short
      · exact readMoreArguments_stops ih short
      · exact readFields_stops ih short
      · exact readMoreFields_stops ih short

theorem ofTokens_stops (rejected : ofTokens ts = .error fault) : fault.StopsIn ts := by
  unfold ofTokens at rejected
  split at rejected
  · rename_i first
    cases rejected
    exact (stopsBelow _).marked (Nat.lt_succ_self ts.length) _ first
  · cases rejected
  · rename_i read first
    cases rejected
    obtain ⟨front, split⟩ :=
      ((spelledBelow _).marked (Nat.lt_succ_self ts.length)).suffix first
    exact .trailing split

-----------------------------------------------------------------------------------------
-- The places of errors
-----------------------------------------------------------------------------------------

/-- The token that a cause says was found. -/
def Cause.found? : Cause → Option Token.Kind
  | .expected _ found | .noType found | .noFieldName found | .trailing found => some found
  | .openBound => none

/-- Where the last of some tokens begin, there stands the first of these, or the end. -/
theorem offsetOf_append (before after : List Token) (size : Nat)
    : ∃ token later,
        after ++ [⟨.finish, size, size⟩] = token :: later
        ∧ offsetOf (before ++ after) after.length size = token.start
        ∧ found (after.map Token.kind) = token.kind := by
  have last : (before ++ after).drop ((before ++ after).length - after.length) = after := by
    rw [List.length_append, Nat.add_sub_cancel, List.drop_left]
  unfold offsetOf
  rw [last]
  cases after with
  | nil => exact ⟨_, [], rfl, rfl, rfl⟩
  | cons token after => exact ⟨token, _, rfl, rfl, rfl⟩

/-- A token of a source is the only one that starts in its place. -/
theorem Token.eq_of_start {source : String} {token other : Token} (here : token ∈ Token.scan source)
    (there : other ∈ Token.scan source) (same : other.start = token.start)
    : other = token := by
  have starts : ((Token.scan source).map Token.start).Nodup :=
    ((Token.starts_scan source).imp Nat.ne_of_lt).map _ fun _ _ => id
  exact List.inj_on_of_nodup_map starts there here same

/-- Where a reader of a source stands, there starts the first token that it has not passed. -/
theorem exists_place {source : String} {passed rest : List Token.Kind}
    (split : passed ++ rest = (Token.read source).map Token.kind)
    : ∃ before token later,
        Token.scan source = before ++ token :: later
        ∧ offsetOf (Token.read source) rest.length source.utf8ByteSize = token.start
        ∧ before.map Token.kind = passed
        ∧ found rest = token.kind := by
  obtain ⟨before, after, whole, rfl, rfl⟩ := List.map_eq_append_iff.1 split.symm
  obtain ⟨token, later, ends, start, kind⟩ := offsetOf_append before after source.utf8ByteSize
  refine ⟨before, token, later, ?_, ?_, rfl, kind⟩
  · rw [Token.scan_eq, whole, List.append_assoc, ends]
  · rw [whole, List.length_map, start]

/-- An error of a source is made of a fault in reading its tokens. -/
theorem exists_fault {source : String} {error : Error} (rejected : parse source = .error error)
    : ∃ fault : Fault,
        fault.StopsIn ((Token.read source).map Token.kind)
        ∧ error = ⟨fault.cause, offsetOf (Token.read source) fault.left source.utf8ByteSize⟩ := by
  rw [parse_eq, Token.stop_source] at rejected
  cases answer : ofTokens ((Token.read source).map Token.kind) with
  | ok hint => simp [answer] at rejected
  | error fault =>
      simp only [answer, Except.error.injEq] at rejected
      exact ⟨fault, ofTokens_stops answer, rejected.symm⟩

/-- An error has the place where a token of its source starts, and only that one. Its message ends
with a token: the one that starts there, unless the error is that a token names no field. Then it is
the token right before.
-/
theorem errors_point {source : String} {error : Error} (rejected : parse source = .error error)
    : ∃ before token later found,
        Token.scan source = before ++ token :: later
        ∧ error.position = token.start
        ∧ (∀ other ∈ Token.scan source, other.start = error.position → other = token)
        ∧ error.cause.found? = some found
        ∧ (∃ said, error.cause.message = said ++ found.label)
        ∧ (error.cause ≠ .noFieldName found ∧ found = token.kind
          ∨ error.cause = .noFieldName found
            ∧ ∃ passed, before.getLast? = some passed ∧ passed.kind = found) := by
  obtain ⟨fault, stops, rfl⟩ := exists_fault rejected
  have only {before later : List Token} {token : Token}
      (split : Token.scan source = before ++ token :: later)
      : ∀ other ∈ Token.scan source, other.start = token.start → other = token := by
    have here : token ∈ Token.scan source := by simp [split]
    exact fun other there same => Token.eq_of_start here there same
  cases stops with
  | expected wanted split | noType split | trailing split =>
      obtain ⟨before, token, later, whole, start, -, kind⟩ := exists_place split
      refine ⟨before, token, later, token.kind, whole, start, start ▸ only whole,
        congrArg some kind, ⟨_, congrArg (_ ++ Token.Kind.label ·) kind⟩, .inl ⟨?_, rfl⟩⟩
      rintro ⟨⟩
  | @noFieldName passed token rest split =>
      have behind : (passed ++ [token]) ++ rest = (Token.read source).map Token.kind := by
        rw [List.append_assoc, List.singleton_append, split]
      obtain ⟨before, next, later, whole, start, kinds, -⟩ := exists_place behind
      obtain ⟨front, last, rfl, -, lastKind⟩ := List.map_eq_append_iff.1 kinds
      obtain ⟨stood, rfl, rfl⟩ := List.map_eq_singleton_iff.1 lastKind
      exact ⟨front ++ [stood], next, later, stood.kind, whole, start, start ▸ only whole, rfl,
        ⟨_, rfl⟩, .inr ⟨rfl, stood, by simp, rfl⟩⟩

/-- Witness: a parenthesis in the place of a name. The error has the place of the brace behind. -/
theorem errors_point_parenthesis
    : let source := "\x7b(\x7d"
      parse source = .error ⟨.noFieldName .leftParen, 2⟩
      ∧ ∃ before token later passed,
          Token.scan source = before ++ token :: later
          ∧ token.start = 2
          ∧ token.kind = .rightBrace
          ∧ before.getLast? = some passed
          ∧ passed.kind = .leftParen := by
  intro source
  have rejected : parse source = .error ⟨.noFieldName .leftParen, 2⟩ := by decide +kernel
  have listed : ⟨.rightBrace, 2, 3⟩ ∈ Token.scan source := by decide +kernel
  obtain ⟨before, token, later, found, split, start, only, names, -, which⟩ := errors_point rejected
  obtain rfl : .leftParen = found := Option.some.inj names
  obtain ⟨other, -⟩ | ⟨-, passed, last, kind⟩ := which
  · exact absurd rfl other
  · refine ⟨rejected, before, token, later, passed, split, start.symm, ?_, last, kind⟩
    rw [← only _ listed rfl]

end Typings.Hint
