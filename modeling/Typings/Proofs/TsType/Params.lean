import Typings.TsType.Params

/-! Parameter lists as TypeScript allows them, and what the two passes over a parameter list make of
it. The pass over rest parameters touches the first of them only; the pass over optional parameters
takes each mark that stands before a parameter that has to be given.
-/

namespace Typings.Param

variable {params : List (Param TsType)}

/-- Whether an argument has to be given for a parameter. -/
def isRequired (param : Param TsType) : Bool :=
  !param.optional && !param.rest

/-- No parameter but the last takes the rest of the arguments. -/
def RestIsLast (params : List (Param TsType)) : Prop :=
  ∀ param ∈ params.dropLast, param.rest = false

/-- No parameter that may be left out stands before one that has to be given. -/
def OptionalsTrail (params : List (Param TsType)) : Prop :=
  params.Pairwise fun earlier later => earlier.optional = true → later.isRequired = false

instance : DecidablePred RestIsLast := fun params =>
  inferInstanceAs (Decidable (∀ param ∈ params.dropLast, param.rest = false))

instance : DecidablePred OptionalsTrail := fun params =>
  inferInstanceAs (Decidable (params.Pairwise fun earlier later =>
    earlier.optional = true → later.isRequired = false))

/-- A parameter list as TypeScript allows it. -/
structure Allowed (params : List (Param TsType)) : Prop where
  rest : RestIsLast params
  optional : OptionalsTrail params

-----------------------------------------------------------------------------------------
-- Rest parameters
-----------------------------------------------------------------------------------------

theorem restIsLast_iff_marks
    : RestIsLast params ↔ ∀ mark ∈ (params.map Param.rest).dropLast, mark = false := by
  simp [RestIsLast, ← List.map_dropLast]

theorem restIsLast_cons {param : Param TsType} (others : params ≠ [])
    : RestIsLast (param :: params) ↔ param.rest = false ∧ RestIsLast params := by
  rw [RestIsLast, List.dropLast_cons_of_ne_nil others, List.forall_mem_cons]
  rfl

/-- The pass keeps all of each parameter but the mark of a rest parameter, and that mark stays with
the last parameter and behind another such mark.
-/
theorem getElem?_restLast (params : List (Param TsType)) (place : Nat)
    : (restLast params)[place]?
      = params[place]?.map fun param =>
          { param with
            rest := param.rest && (place + 1 == params.length
              || (params.take place).any Param.rest) } := by
  induction params generalizing place with
  | nil => rfl
  | cons param params ih =>
      obtain ⟨name, type, optional, rest⟩ := param
      cases rest with
      | false =>
          cases place with
          | zero => rfl
          | succ place => simpa [restLast] using ih place
      | true =>
          cases params with
          | nil => cases place <;> rfl
          | cons next params => cases place <;> simp [restLast]

theorem map_name_restLast (params : List (Param TsType))
    : (restLast params).map Param.name = params.map Param.name := by
  refine List.ext_getElem? fun place => ?_
  rw [List.getElem?_map, getElem?_restLast, List.getElem?_map, Option.map_map]
  rfl

theorem length_restLast (params : List (Param TsType))
    : (restLast params).length = params.length := by
  simpa using congrArg List.length (map_name_restLast params)

/-- Which parameters are rest parameters after the pass, by which were before it. -/
theorem map_rest_restLast (params : List (Param TsType))
    : (restLast params).map Param.rest
      = (params.map Param.rest).mapIdx fun place mark =>
          mark && (place + 1 == params.length
            || ((params.map Param.rest).take place).contains true) := by
  refine List.ext_getElem? fun place => ?_
  rw [List.getElem?_map, getElem?_restLast, List.getElem?_mapIdx, List.getElem?_map, Option.map_map,
    Option.map_map, ← List.map_take]
  have marked
      : ((params.take place).map Param.rest).contains true
        = (params.take place).any Param.rest := by
    rw [← List.any_beq, List.any_map]
    simp [Function.comp_def]
  rw [marked]
  rfl

/-- The pass leaves a rest parameter before the last exactly if it meets a second one there. -/
theorem restIsLast_restLast (params : List (Param TsType))
    : RestIsLast (restLast params) ↔ params.dropLast.countP Param.rest ≤ 1 := by
  induction params with
  | nil => simp [restLast, RestIsLast]
  | cons param params ih =>
      cases params with
      | nil => cases rest : param.rest <;> simp [restLast, RestIsLast, rest]
      | cons next params =>
          cases rest : param.rest with
          | false =>
              have others : restLast (next :: params) ≠ [] := by
                rw [← List.length_pos_iff, length_restLast]
                exact Nat.zero_lt_succ _
              have passed
                  : restLast (param :: next :: params) = param :: restLast (next :: params) := by
                rw [restLast]
                simp [rest]
              rw [passed, restIsLast_cons others, ih]
              simp [rest]
          | true => simp [RestIsLast, restLast, rest, List.countP_eq_zero]

-----------------------------------------------------------------------------------------
-- Optional parameters
-----------------------------------------------------------------------------------------

/-- What the pass from the end has seen: whether one of the parameters has to be given. -/
theorem passBack_snd (params : List (Param TsType))
    : (passBack params).2 = params.any isRequired := by
  induction params with
  | nil => rfl
  | cons param params ih =>
      rw [List.any_cons, ← ih]
      obtain ⟨name, type, optional, rest⟩ := param
      cases optional <;> cases rest <;> simp [passBack, settle, isRequired]

/-- The rule of the pass: an optional parameter is changed exactly if one that has to be given comes
later.
-/
theorem optionalLast_cons (param : Param TsType) (params : List (Param TsType))
    : optionalLast (param :: params)
      = (if param.optional && !param.rest && params.any isRequired then param.orUndefined
          else param)
        :: optionalLast params := by
  rw [← passBack_snd]
  obtain ⟨name, type, optional, rest⟩ := param
  cases optional <;> cases rest <;> simp [optionalLast, passBack, settle]

/-- The pass takes the mark of an optional parameter where one that has to be given comes later. -/
theorem getElem?_optionalLast (params : List (Param TsType)) (place : Nat)
    : (optionalLast params)[place]?
      = params[place]?.map fun param =>
          if param.optional && !param.rest && (params.drop (place + 1)).any isRequired then
            param.orUndefined
          else param := by
  induction params generalizing place with
  | nil => rfl
  | cons param params ih =>
      cases place with
      | zero => simp [optionalLast_cons]
      | succ place => simpa [optionalLast_cons] using ih place

theorem drop_optionalLast (params : List (Param TsType)) (count : Nat)
    : (optionalLast params).drop count = optionalLast (params.drop count) := by
  induction params generalizing count with
  | nil => simp [optionalLast, passBack]
  | cons param params ih =>
      cases count with
      | zero => rfl
      | succ count =>
          rw [optionalLast_cons, List.drop_succ_cons, List.drop_succ_cons]
          exact ih count

/-- A mark is taken only before a parameter that has to be given, so whether there is such a
parameter stays as it is.
-/
theorem any_isRequired_optionalLast (params : List (Param TsType))
    : (optionalLast params).any isRequired = params.any isRequired := by
  induction params with
  | nil => rfl
  | cons param params ih =>
      rw [optionalLast_cons, List.any_cons, List.any_cons, ih]
      split
      · rename_i taken
        simp only [Bool.and_eq_true] at taken
        simp [taken.2]
      · rfl

theorem map_optionalLast {α : Type} (field : Param TsType → α)
    (kept : ∀ param : Param TsType, field param.orUndefined = field param)
    (params : List (Param TsType))
    : (optionalLast params).map field = params.map field := by
  induction params with
  | nil => rfl
  | cons param params ih =>
      rw [optionalLast_cons, List.map_cons, ih, List.map_cons]
      split
      · rw [kept]
      · rfl

theorem length_optionalLast (params : List (Param TsType))
    : (optionalLast params).length = params.length := by
  simpa using congrArg List.length (map_optionalLast Param.name (fun _ => rfl) params)

-----------------------------------------------------------------------------------------
-- Both passes
-----------------------------------------------------------------------------------------

/-- What has become of the parameter `before` behind `earlier` ones, in a list in which `later`
follow it: it loses the mark of an optional parameter exactly if one of those has to be given, and
then it admits undefined. It loses the mark of a rest parameter exactly if others follow it and no
earlier one had that mark.
-/
structure Settled (earlier : List (Param TsType)) (before after : Param TsType)
    (later : List (Param TsType))
    : Prop where
  name : after.name = before.name
  optional : after.optional = (before.optional && !later.any isRequired)
  type
    : after.type
      = if before.optional && later.any isRequired then before.type.orUndefined else before.type
  rest : after.rest = (before.rest && (later.isEmpty || earlier.any Param.rest))

/-- A parameter that is not both optional and a rest parameter is settled by the two passes. -/
theorem settled_passes {before after : Param TsType} {place : Nat}
    (exclusive : before.rest = true → before.optional = false)
    (known : params[place]? = some before)
    (made : (optionalLast (restLast params))[place]? = some after)
    : Settled (params.take place) before after
        ((optionalLast (restLast params)).drop (place + 1)) := by
  rw [getElem?_optionalLast, getElem?_restLast, known] at made
  simp only [Option.map_some, Option.some.injEq] at made
  have later
      : ((optionalLast (restLast params)).drop (place + 1)).any isRequired
        = ((restLast params).drop (place + 1)).any isRequired := by
    rw [drop_optionalLast, any_isRequired_optionalLast]
  have last
      : ((optionalLast (restLast params)).drop (place + 1)).isEmpty
        = (place + 1 == params.length) := by
    have bound : place < params.length := (List.getElem?_eq_some_iff.1 known).1
    rw [Bool.eq_iff_iff, List.isEmpty_iff, List.drop_eq_nil_iff, length_optionalLast,
      length_restLast, beq_iff_eq]
    omega
  obtain ⟨name, type, optional, rest⟩ := before
  cases optional with
  | false =>
      subst made
      exact ⟨rfl, rfl, rfl, by rw [last]; rfl⟩
  | true =>
      obtain rfl : rest = false := by simpa using exclusive
      cases required : ((restLast params).drop (place + 1)).any isRequired with
      | false =>
          simp only [required, Bool.false_and, Bool.and_false] at made
          subst made
          exact ⟨rfl, by simp [later, required], by simp [later, required], rfl⟩
      | true =>
          simp only [required, Bool.false_and, Bool.not_false, Bool.and_self, if_true] at made
          subst made
          exact ⟨rfl, by simp [later, required, orUndefined],
            by simp [later, required, orUndefined], rfl⟩

/-- Where every parameter is settled, no optional one stands before one that has to be given. -/
theorem optionalsTrail_of_settled {resolved : List (Param TsType)}
    (length : params.length = resolved.length)
    (settled : ∀ place before after, resolved[place]? = some before → params[place]? = some after →
      Settled (resolved.take place) before after (params.drop (place + 1)))
    : OptionalsTrail params := by
  refine List.pairwise_iff_getElem.2 fun i j first second before optional => ?_
  have own := settled i resolved[i] params[i] (List.getElem?_eq_getElem (length ▸ first))
    (List.getElem?_eq_getElem first)
  have none : (params.drop (i + 1)).any isRequired = false := by
    have kept := own.optional
    rw [optional] at kept
    simpa using (Bool.and_eq_true_iff.1 kept.symm).2
  have behind : params[j] ∈ params.drop (i + 1) :=
    List.mem_drop_iff_getElem.2 ⟨j - (i + 1), by omega, by congr 1; omega⟩
  simpa using List.any_eq_false.1 none _ behind

end Typings.Param
