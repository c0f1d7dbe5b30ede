import Typings.TsType.Union

/-!
Parameter lists as TypeScript allows them: a rest parameter stands last, and no parameter that may
be left out stands before one that may not.
-/

namespace Typings.Param

/-- The parameter that has to be given, but may be given undefined. -/
def orUndefined (param : Param TsType) : Param TsType :=
  { param with optional := false, type := param.type.orUndefined }

/-- The parameters with the first rest parameter turned into a plain one, unless it is the last
parameter of all. -/
def restLast : List (Param TsType) → List (Param TsType)
  | [] => []
  | param :: params =>
    if !param.rest then param :: restLast params
    else if params.isEmpty then [param]
    else { param with rest := false } :: params

/-- One parameter in the pass from the end, with whether one that has to be given was seen. Rest
parameters are passed over. -/
def settle (param : Param TsType) (seen : Bool) : Param TsType × Bool :=
  if param.rest then (param, seen)
  else if !param.optional then (param, true)
  else (if seen then param.orUndefined else param, seen)

/-- The parameters from the end, with whether one that has to be given is among them. -/
def passBack : List (Param TsType) → List (Param TsType) × Bool
  | [] => ([], false)
  | param :: params =>
    let (params, seen) := passBack params
    let (param, seen) := param.settle seen
    (param :: params, seen)

/-- The parameters with each optional one that a required one follows made required. -/
def optionalLast (params : List (Param TsType)) : List (Param TsType) :=
  (passBack params).1

end Typings.Param
