import Typings.Doclet.Basic
import Typings.Json.Decode

/-!
Reading doclets from the JSON text that a documentation generator writes: a list of records.
-/

namespace Typings.Doclet

open Json Json.Decode

/-- The list of alternatives of a documented type. -/
def typeDecoder : Decoder (List String) :=
  record "DocType" [.mayHave "names" (list text) fun _ names => names] []

/-- A documented parameter or property. -/
def entryDecoder : Decoder Entry :=
  record "DocParam"
    [.mayHave "name" text fun e name => { e with name },
      .mayHave "type" (orNull typeDecoder) fun e type => { e with type },
      .mayHave "description" (orNull text) fun e description => { e with description },
      .mayHave "optional" boolean fun e optional => { e with optional },
      .mayHave "nullable" (orNull boolean) fun e nullable => { e with nullable },
      .mayHave "variable" boolean fun e variadic => { e with variadic },
      .mayHave "defaultvalue" (orNull value) fun e defaultValue => { e with defaultValue }]
    {}

/-- A documented result. -/
def outcomeDecoder : Decoder Outcome :=
  record "DocReturn"
    [.mayHave "type" (orNull typeDecoder) fun o type => { o with type },
      .mayHave "description" (orNull text) fun o description => { o with description }]
    {}

/-- A tag. -/
def tagDecoder : Decoder Tag :=
  record "DocTag"
    [.mayHave "title" text fun t title => { t with title },
      .mayHave "value" (orNull text) fun t value => { t with value },
      .mayHave "text" (orNull text) fun t text => { t with text }]
    {}

/-- The kind and value of source code. -/
def codeDecoder : Decoder Code :=
  record "DocCode"
    [.mayHave "type" (orNull text) fun c kind => { c with kind },
      .mayHave "value" (orNull value) fun c value => { c with value }]
    {}

/-- The origin of a doclet. -/
def originDecoder : Decoder Origin :=
  record "DocMeta" [.mayHave "code" (orNull codeDecoder) fun o code => { o with code }] {}

/-- A kind, by its name. -/
def kindDecoder : Decoder Kind
  | room, tree => do
    let name ← text room tree
    match Kind.ofName? name with
    | some kind => return kind
    | none => .error (.mismatch (.unknown "doclet kind" name))

/-- A scope, by its name. -/
def scopeDecoder : Decoder Scope :=
  choice (Scope.all.map fun scope => (scope.name, scope))

/-- An access level, by its name. -/
def accessDecoder : Decoder Access :=
  choice (Access.all.map fun access => (access.name, access))

/-- The fields of a doclet. Only its kind and its longname have to be there. -/
def fields : List (Decode.Field Doclet) :=
  [.mustHave "kind" kindDecoder fun d kind => { d with kind },
    .mayHave "name" text fun d name => { d with name },
    .mustHave "longname" text fun d longname => { d with longname },
    .mayHave "memberof" (orNull text) fun d memberof => { d with memberof },
    .mayHave "scope" (orNull scopeDecoder) fun d scope => { d with scope },
    .mayHave "access" (orNull accessDecoder) fun d access => { d with access },
    .mayHave "ignore" boolean fun d ignored => { d with ignored },
    .mayHave "undocumented" boolean fun d undocumented => { d with undocumented },
    .mayHave "isEnum" boolean fun d enumerates => { d with enumerates },
    .mayHave "readonly" boolean fun d readonly => { d with readonly },
    .mayHave "optional" boolean fun d optional => { d with optional },
    .mayHave "nullable" (orNull boolean) fun d nullable => { d with nullable },
    .mayHave "variable" boolean fun d variadic => { d with variadic },
    .mayHave "augments" (list text) fun d augments => { d with augments },
    .mayHave "implements" (list text) fun d implements => { d with implements },
    .mayHave "mixes" (list text) fun d mixes => { d with mixes },
    .mayHave "type" (orNull typeDecoder) fun d type => { d with type },
    .mayHave "properties" (list entryDecoder) fun d properties => { d with properties },
    .mayHave "params" (list entryDecoder) fun d params => { d with params },
    .mayHave "returns" (list outcomeDecoder) fun d returns => { d with returns },
    .mayHave "description" (orNull text) fun d description => { d with description },
    .mayHave "classdesc" (orNull text) fun d classDescription =>
      { d with classDescription },
    .mayHave "comment" text fun d comment => { d with comment },
    .mayHave "examples" (list text) fun d examples => { d with examples },
    .mayHave "defaultvalue" (orNull value) fun d defaultValue => { d with defaultValue },
    .mayHave "meta" (orNull originDecoder) fun d origin => { d with origin },
    .mayHave "tags" (list tagDecoder) fun d tags => { d with tags }]

/-- A doclet. Its kind and its longname are always taken from the text, since they have to be
there. -/
def decoder : Decoder Doclet :=
  record "Doclet" fields { kind := .member, name := "", longname := "" }

/-- The doclets of a tree. -/
def listOfTree (tree : Tree) : Except Json.Fault (List Doclet) :=
  list decoder maxDepth tree

/-- The doclets of a whole text. -/
def listOfText (source : String) : Except Json.Fault (List Doclet) :=
  ofText (list decoder) source

/-- The message about a text that does not hold doclets. -/
def faultMessage (fault : Json.Fault) : String :=
  "invalid doclet input: " ++ fault.message

end Typings.Doclet
