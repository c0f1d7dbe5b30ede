import Mathlib.Data.List.Infix
import Mathlib.Data.List.TakeWhile
import Typings.Proofs.Hint.Scanning

/-! The names that namepaths stand for. A namepath stands for identifiers with points between them,
unless it is behind the kind of a path and does not begin as a name does.
-/

namespace Typings.Hint

open Text Lexeme Namepath

-----------------------------------------------------------------------------------------
-- Paths of names
-----------------------------------------------------------------------------------------

/-- A text begins as a name does. -/
def Starts (cs : List Char) : Prop :=
  ∃ c ∈ cs.head?, isNameStart c = true

/-- Name characters, and points before what begins as a name. Other characters are allowed too. -/
def Dotted (allowed : List Char) : List Char → Prop
  | [] => True
  | c :: cs =>
    (isNameChar c = true ∨ c ∈ allowed ∨ c = '.' ∧ Starts cs) ∧ Dotted allowed cs

section dotted

variable {c : Char} {cs ds allowed : List Char}

@[simp]
theorem not_starts_nil : ¬ Starts [] := by
  simp [Starts]

@[simp]
theorem starts_cons : Starts (c :: cs) ↔ isNameStart c = true := by
  simp [Starts]

theorem starts_append (first : Starts cs) : Starts (cs ++ ds) := by
  cases cs with
  | nil => exact absurd first not_starts_nil
  | cons => simpa using first

theorem starts_append_iff (none : ¬ Starts ds) : Starts (cs ++ ds) ↔ Starts cs := by
  cases cs with
  | nil => simp [none]
  | cons => simp

theorem dotted_append (front : Dotted allowed cs) (back : Dotted allowed ds)
    : Dotted allowed (cs ++ ds) := by
  induction cs with
  | nil => exact back
  | cons c cs ih =>
      obtain ⟨first, rest⟩ := front
      exact ⟨first.imp_right (.imp_right (.imp_right starts_append)), ih rest⟩

theorem dotted_of_append (whole : Dotted allowed (cs ++ ds)) : Dotted allowed ds := by
  induction cs with
  | nil => exact whole
  | cons c cs ih => exact ih whole.2

theorem dotted_of_names (names : ∀ c ∈ cs, isNameChar c = true) : Dotted allowed cs := by
  induction cs with
  | nil => trivial
  | cons c cs ih =>
      obtain ⟨first, rest⟩ := List.forall_mem_cons.1 names
      exact ⟨.inl first, ih rest⟩

theorem mem_dotted (dotted : Dotted allowed cs) (mem : c ∈ cs)
    : isNameChar c = true ∨ c ∈ allowed ∨ c = '.' := by
  induction cs with
  | nil => cases mem
  | cons d cs ih =>
      obtain ⟨first, rest⟩ := dotted
      rcases List.mem_cons.1 mem with rfl | later
      · exact first.imp_right (.imp_right And.left)
      · exact ih rest later

theorem dotted_separated {segments : List String}
    (identifiers : ∀ segment ∈ segments, isIdentifier segment = true)
    : Dotted [] (separated "." segments) := by
  induction segments with
  | nil => trivial
  | cons segment segments ih =>
      obtain ⟨own, others⟩ := List.forall_mem_cons.1 identifiers
      obtain ⟨c, cs, chars, starts, names⟩ := chars_of_isIdentifier own
      have whole : separated "." (segment :: segments)
          = '.' :: (c :: cs ++ separated "." segments) := by
        simp [separated, chars]
      rw [whole]
      exact ⟨.inr (.inr ⟨rfl, by simpa using starts⟩),
        dotted_append (dotted_of_names names) (ih others)⟩

theorem not_starts_separated (segments : List String) : ¬ Starts (separated "." segments) := by
  cases segments with
  | nil => exact not_starts_nil
  | cons segment segments =>
      intro starts
      exact absurd (starts_cons.1 starts) (by decide)

theorem isIdentifier_ofList (starts : isNameStart c = true)
    (names : ∀ d ∈ cs, isNameChar d = true)
    : isIdentifier (String.ofList (c :: cs)) = true := by
  simpa [isIdentifier, starts] using names

/-- Such a text is one word and then identifiers, each behind a point. -/
theorem exists_segments (dotted : Dotted [] cs)
    : ∃ (word : List Char) (segments : List String),
        cs = word ++ separated "." segments
        ∧ (∀ c ∈ word, isNameChar c = true)
        ∧ ∀ segment ∈ segments, isIdentifier segment = true := by
  induction cs with
  | nil => exact ⟨[], [], rfl, nofun, nofun⟩
  | cons c cs ih =>
      obtain ⟨first, rest⟩ := dotted
      obtain ⟨word, segments, rfl, names, identifiers⟩ := ih rest
      rcases first with name | never | ⟨rfl, starts⟩
      · exact ⟨c :: word, segments, rfl, List.forall_mem_cons.2 ⟨name, names⟩, identifiers⟩
      · cases never
      · cases word with
        | nil => exact absurd starts (not_starts_separated segments)
        | cons d ds =>
            have begins : isNameStart d = true := by simpa using starts
            have later := (List.forall_mem_cons.1 names).2
            refine ⟨[], String.ofList (d :: ds) :: segments, by simp [separated], nofun, ?_⟩
            exact List.forall_mem_cons.2 ⟨isIdentifier_ofList begins later, identifiers⟩

theorem isPath_iff {name : String}
    : IsPath name ↔ Starts name.toList ∧ Dotted [] name.toList := by
  constructor
  · rintro ⟨_ | ⟨first, segments⟩, nonempty, identifiers, rfl⟩
    · exact absurd rfl nonempty
    · obtain ⟨own, others⟩ := List.forall_mem_cons.1 identifiers
      obtain ⟨c, cs, chars, starts, names⟩ := chars_of_isIdentifier own
      rw [toList_intercalate_cons, chars]
      exact ⟨by simpa using starts, dotted_append (dotted_of_names names) (dotted_separated others)⟩
  · rintro ⟨starts, dotted⟩
    obtain ⟨word, segments, whole, names, identifiers⟩ := exists_segments dotted
    rw [whole] at starts
    cases word with
    | nil => exact absurd starts (not_starts_separated segments)
    | cons c cs =>
        have begins : isNameStart c = true := by simpa using starts
        have later := (List.forall_mem_cons.1 names).2
        refine ⟨String.ofList (c :: cs) :: segments, List.cons_ne_nil _ _, ?_, ?_⟩
        · exact List.forall_mem_cons.2 ⟨isIdentifier_ofList begins later, identifiers⟩
        · rw [← String.toList_inj, toList_intercalate_cons, whole, String.toList_ofList]

theorem mem_path {name : String} (path : IsPath name) (mem : c ∈ name.toList)
    : isNameChar c = true ∨ c = '.' := by
  simpa using mem_dotted (isPath_iff.1 path).2 mem

end dotted

-----------------------------------------------------------------------------------------
-- Namepaths as they are scanned
-----------------------------------------------------------------------------------------

/-- All of a text belongs to a path. -/
def InPath (inModule : Bool) : List Char → Prop
  | [] => True
  | c :: cs => pathGoesOn inModule c cs = true ∧ InPath (inModule && c != '~' && c != '#') cs

section paths

variable {c : Char} {cs ds : List Char} {inModule : Bool}

theorem pathGoesOn_iff
    : pathGoesOn inModule c cs = true
      ↔ isNameChar c = true
        ∨ c ∈ ['.', '~', '#'] ∧ Starts cs
        ∨ inModule = true ∧ c ∈ ['/', '-', '@'] := by
  have starts : cs.head?.any isNameStart = true ↔ Starts cs :=
    Option.any_eq_true _ _
  simp [pathGoesOn, starts, or_assoc]

theorem starts_spanPath : Starts (spanPath inModule cs).1 ↔ Starts cs := by
  cases cs with
  | nil => rfl
  | cons c cs =>
      rw [spanPath]
      split
      · simp
      next ends =>
        have name : isNameStart c ≠ true := by
          intro starts
          simp [pathGoesOn, isNameChar_of_isNameStart starts] at ends
        simp [name]

theorem inPath_spanPath (inModule : Bool) (cs : List Char)
    : InPath inModule (spanPath inModule cs).1 := by
  induction cs generalizing inModule with
  | nil => trivial
  | cons c cs ih =>
      rw [spanPath]
      split
      next goesOn =>
        refine ⟨?_, ih _⟩
        rw [pathGoesOn_iff] at goesOn ⊢
        rwa [starts_spanPath]
      next => trivial

theorem inPath_append (names : ∀ c ∈ cs, isNameChar c = true) (back : InPath false ds)
    : InPath false (cs ++ ds) := by
  induction cs with
  | nil => exact back
  | cons c cs ih =>
      obtain ⟨first, rest⟩ := List.forall_mem_cons.1 names
      exact ⟨by simp [pathGoesOn, first], ih rest⟩

theorem inPath_of_names (names : ∀ c ∈ cs, isNameChar c = true) : InPath false cs := by
  have path : InPath false (cs ++ []) := inPath_append names trivial
  rwa [List.append_nil] at path

/-- A colon belongs to no path. -/
theorem colon_not_mem (path : InPath inModule cs) : ':' ∉ cs := by
  induction cs generalizing inModule with
  | nil => exact List.not_mem_nil
  | cons c cs ih =>
      obtain ⟨goesOn, rest⟩ := path
      rw [List.mem_cons, not_or]
      refine ⟨?_, ih rest⟩
      rintro rfl
      have name : isNameChar ':' = false := by decide
      simp [pathGoesOn, name] at goesOn

/-- A namepath as it is written: a path that begins as a name does, or one behind its kind. -/
inductive Written : List Char → Prop where
  | plain {cs : List Char} (starts : Starts cs) (path : InPath false cs) : Written cs
  | kind {word path : List Char} (kind : word ∈ pathKinds)
    (inPath : InPath (word == "module".toList) path)
    : Written (word ++ ':' :: path)

theorem written_spanNamepath (starts : isNameStart c = true)
    : Written (spanNamepath (c :: cs)).1 := by
  have name := isNameChar_of_isNameStart starts
  have names : ∀ d ∈ (c :: cs).takeWhile isNameChar, isNameChar d = true :=
    fun _ mem => List.mem_takeWhile_imp mem
  have begins (rest : List Char) : Starts ((c :: cs).takeWhile isNameChar ++ rest) := by
    simpa [name] using starts
  have plain (rest : List Char) (path : InPath false rest)
      : Written ((c :: cs).takeWhile isNameChar ++ rest) :=
    .plain (begins rest) (inPath_append names path)
  unfold spanNamepath
  dsimp only
  split
  · split
    next known =>
      rw [Bool.and_eq_true, List.contains_iff_mem] at known
      exact .kind known.1 (inPath_spanPath _ _)
    next => simpa using plain [] trivial
  next => exact plain _ (inPath_spanPath _ _)

theorem ofName_eq_name {text other : String} (same : Token.Kind.ofName text = .name other)
    : text = other := by
  unfold Token.Kind.ofName at same
  split at same
  all_goals cases same
  rfl

theorem written_of_lexeme {lexeme : Lexeme} {text : String} (found : lexeme? c cs = some lexeme)
    (name : lexeme.kind = .name text)
    : Written text.toList := by
  unfold lexeme? at found
  split at found
  next kind punctuation =>
    cases found
    subst name
    unfold Token.Kind.ofPunctuation? at punctuation
    split at punctuation <;> cases punctuation
  next =>
    split at found
    · cases found
      unfold point at name
      split at name <;> cases name
    · split at found
      · cases found
        unfold string at name
        dsimp only at name
        split at name <;> cases name
      · split at found
        · cases found
          cases name
        · split at found
          next starts =>
            cases found
            rw [← ofName_eq_name name, String.toList_ofList]
            exact written_spanNamepath starts
          next => cases found

theorem written_of_mem_scanFrom {offset : Nat} {text : String}
    (mem : .name text ∈ (Token.scanFrom offset cs).1.map Token.kind)
    : Written text.toList := by
  fun_induction Token.scanFrom offset cs with
  | case1 => cases mem
  | case2 offset c cs none ih => exact ih mem
  | case3 offset c cs lexeme found tokens stop same ih =>
      rw [same] at ih
      rcases List.mem_cons.1 mem with name | later
      · exact written_of_lexeme found name.symm
      · exact ih later

/-- Every name among the tokens of a text is a namepath as it is written. -/
theorem written_of_mem {source text : String} (mem : .name text ∈ kinds source)
    : Written text.toList := by
  rw [kinds_eq, List.mem_append] at mem
  rcases mem with within | last
  · exact written_of_mem_scanFrom within
  · cases List.mem_singleton.1 last

end paths

-----------------------------------------------------------------------------------------
-- What namepaths stand for
-----------------------------------------------------------------------------------------

/-- A namepath leads to a name: what follows its kind begins as a name does. In the path of a module
that is its last segment, where hyphens and at signs are fine too. A path without a kind always
does.
-/
def Leads (text : String) : Prop :=
  match text.toList.dropWhile (· != ':') with
  | [] => True
  | _ :: path =>
    if text.toList.takeWhile (· != ':') = "module".toList then
      ∃ c ∈ (lastSegment (path.takeWhile (!isMemberMark ·))).head?,
        isNameStart c = true ∨ c ∈ ['-', '@']
    else Starts path

section entityName

variable {c : Char} {cs : List Char}

theorem isMemberMark_of_isNameChar (name : isNameChar c = true) : isMemberMark c = false := by
  have tilde : c ≠ '~' := ne_of_isNameChar name (by decide)
  have hash : c ≠ '#' := ne_of_isNameChar name (by decide)
  simp [isMemberMark, tilde, hash]

theorem isMemberMark_of_isNameStart (starts : isNameStart c = true) : isMemberMark c = false :=
  isMemberMark_of_isNameChar (isNameChar_of_isNameStart starts)

/-- A text with a point for every mark of a member. -/
def pointed (cs : List Char) : List Char :=
  cs.map fun c => if isMemberMark c then '.' else c

theorem pointed_of_dotted (dotted : Dotted [] cs) : pointed cs = cs := by
  induction cs with
  | nil => rfl
  | cons c cs ih =>
      obtain ⟨first, rest⟩ := dotted
      have plain : isMemberMark c = false := by
        rcases first with name | never | ⟨rfl, -⟩
        · exact isMemberMark_of_isNameChar name
        · cases never
        · rfl
      rw [pointed, List.map_cons, plain]
      exact congrArg (c :: ·) (ih rest)

theorem starts_pointed : Starts (pointed cs) ↔ Starts cs := by
  cases cs with
  | nil => rfl
  | cons c cs =>
      rw [pointed, List.map_cons, starts_cons, starts_cons]
      cases mark : isMemberMark c with
      | false => rfl
      | true =>
          have name : isNameStart c ≠ true := by
            intro starts
            rw [isMemberMark_of_isNameStart starts] at mark
            cases mark
          have point : isNameStart '.' ≠ true := by decide
          simp [name, point]

theorem dotted_pointed (path : InPath false cs) : Dotted [] (pointed cs) := by
  induction cs with
  | nil => trivial
  | cons c cs ih =>
      obtain ⟨goesOn, rest⟩ := path
      refine ⟨?_, ih rest⟩
      rcases pathGoesOn_iff.1 goesOn with name | ⟨separator, starts⟩ | ⟨never, -⟩
      · exact .inl (by simpa [isMemberMark_of_isNameChar name] using name)
      · refine .inr (.inr ⟨?_, starts_pointed.2 starts⟩)
        simp only [List.mem_cons, List.not_mem_nil, or_false] at separator
        rcases separator with rfl | rfl | rfl <;> rfl
      · cases never

theorem without_of_not_mem {front : String} (mark : c ∈ front.toList) (absent : c ∉ cs)
    : without front cs = cs := by
  rw [without]
  cases found : front.toList.isPrefixOf? cs with
  | none => rfl
  | some rest =>
      rw [List.isPrefixOf?_eq_some_iff_append_eq] at found
      rw [← found] at absent
      exact absurd (List.mem_append_left rest mark) absent

theorem withoutModule_of_not_mem (absent : ':' ∉ cs) : withoutModule cs = cs := by
  unfold withoutModule
  split
  · rfl
  next rest found =>
    rw [List.isPrefixOf?_eq_some_iff_append_eq] at found
    rw [← found] at absent
    exact absurd (List.mem_append_left rest (by decide)) absent

/-- Where no kind is written, only the marks of members change. -/
theorem toList_entityName_of_not_mem {text : String} (absent : ':' ∉ text.toList)
    : (entityName text).toList = pointed text.toList := by
  rw [entityName, String.toList_ofList, without_of_not_mem (by decide) absent,
    without_of_not_mem (by decide) absent, withoutModule_of_not_mem absent]
  rfl

/-- A path of names leads through no module and to no member inside its owner. -/
theorem entityName_of_path {name : String} (path : IsPath name) : entityName name = name := by
  obtain ⟨-, dotted⟩ := isPath_iff.1 path
  have absent : ':' ∉ name.toList := fun mem => absurd (mem_dotted dotted mem) (by decide)
  rw [← String.toList_inj, toList_entityName_of_not_mem absent, pointed_of_dotted dotted]

-----------------------------------------------------------------------------------------
-- Modules
-----------------------------------------------------------------------------------------

theorem starts_takeWhile (starts : Starts cs) : Starts (cs.takeWhile (!isMemberMark ·)) := by
  cases cs with
  | nil => exact starts
  | cons c cs =>
      have begins := starts_cons.1 starts
      simpa [isMemberMark_of_isNameStart begins] using begins

theorem not_starts_dropWhile : ¬ Starts (cs.dropWhile (!isMemberMark ·)) := by
  induction cs with
  | nil => exact not_starts_nil
  | cons c cs ih =>
      cases mark : isMemberMark c with
      | true =>
          intro starts
          rw [List.dropWhile_cons_of_neg (by simp [mark]), starts_cons] at starts
          rw [isMemberMark_of_isNameStart starts] at mark
          cases mark
      | false => rwa [List.dropWhile_cons_of_pos (by simp [mark])]

/-- The path of a module ends at the first mark of a member. -/
theorem dotted_takeWhile (path : InPath true cs)
    : Dotted ['/', '-', '@'] (cs.takeWhile (!isMemberMark ·))
      ∧ InPath false (cs.dropWhile (!isMemberMark ·)) := by
  induction cs with
  | nil => exact ⟨trivial, trivial⟩
  | cons c cs ih =>
      obtain ⟨goesOn, rest⟩ := path
      have goesOn := pathGoesOn_iff.1 goesOn
      cases mark : isMemberMark c with
      | true =>
          rw [List.takeWhile_cons_of_neg (by simp [mark]),
            List.dropWhile_cons_of_neg (by simp [mark])]
          have here : c ∈ ['.', '~', '#'] ∧ Starts cs := by
            rcases goesOn with name | here | ⟨-, slash⟩
            · rw [isMemberMark_of_isNameChar name] at mark
              cases mark
            · exact here
            · simp only [List.mem_cons, List.not_mem_nil, or_false] at slash
              rcases slash with rfl | rfl | rfl <;> cases mark
          have outside : (true && c != '~' && c != '#') = false := by
            have separator : c = '~' ∨ c = '#' := by simpa [isMemberMark] using mark
            rcases separator with rfl | rfl <;> rfl
          rw [outside] at rest
          exact ⟨trivial, pathGoesOn_iff.2 (.inr (.inl here)), rest⟩
      | false =>
          have inside : c ≠ '~' ∧ c ≠ '#' := by simpa [isMemberMark] using mark
          simp only [bne_iff_ne.2 inside.1, bne_iff_ne.2 inside.2, Bool.and_self] at rest
          obtain ⟨front, back⟩ := ih rest
          rw [List.takeWhile_cons_of_pos (by simp [mark]),
            List.dropWhile_cons_of_pos (by simp [mark])]
          refine ⟨⟨?_, front⟩, back⟩
          rcases goesOn with name | ⟨separator, starts⟩ | ⟨-, slash⟩
          · exact .inl name
          · have point : c = '.' := by simpa [inside.1, inside.2] using separator
            exact .inr (.inr ⟨point, starts_takeWhile starts⟩)
          · exact .inr (.inl slash)

theorem exists_lastSegment (cs : List Char)
    : (∃ front, cs = front ++ lastSegment cs) ∧ '/' ∉ lastSegment cs := by
  constructor
  · refine ⟨(cs.reverse.dropWhile (· != '/')).reverse, ?_⟩
    rw [lastSegment, ← List.reverse_append, List.takeWhile_append_dropWhile, List.reverse_reverse]
  · intro mem
    have slash := List.mem_takeWhile_imp (List.mem_reverse.1 mem)
    exact absurd slash (by decide)

/-- In the name of a module, hyphens and at signs are as good as what begins a name. -/
def underscored (c : Char) : Char :=
  if c == '-' || c == '@' then '_' else c

theorem underscored_of_isNameChar (name : isNameChar c = true) : underscored c = c := by
  have hyphen : c ≠ '-' := ne_of_isNameChar name (by decide)
  have sign : c ≠ '@' := ne_of_isNameChar name (by decide)
  simp [underscored, hyphen, sign]

theorem isNameStart_underscored
    : isNameStart (underscored c) = true ↔ isNameStart c = true ∨ c ∈ ['-', '@'] := by
  by_cases mark : c ∈ ['-', '@']
  · simp only [mark, or_true, iff_true]
    simp only [List.mem_cons, List.not_mem_nil, or_false] at mark
    rcases mark with rfl | rfl <;> decide
  · have plain : underscored c = c := by
      simp only [List.mem_cons, List.not_mem_nil, or_false, not_or] at mark
      simp [underscored, mark]
    simp [plain, mark]

theorem starts_underscored
    : Starts (cs.map underscored) ↔ ∃ c ∈ cs.head?, isNameStart c = true ∨ c ∈ ['-', '@'] := by
  cases cs with
  | nil => simp
  | cons c cs => simpa using isNameStart_underscored

theorem dotted_underscored (dotted : Dotted ['/', '-', '@'] cs) (single : '/' ∉ cs)
    : Dotted [] (cs.map underscored) := by
  induction cs with
  | nil => trivial
  | cons c cs ih =>
      obtain ⟨first, rest⟩ := dotted
      rw [List.mem_cons, not_or] at single
      refine ⟨?_, ih rest single.2⟩
      rcases first with name | mark | ⟨rfl, c, mem, starts⟩
      · exact .inl (by rwa [underscored_of_isNameChar name])
      · refine .inl (isNameChar_of_isNameStart (isNameStart_underscored.2 (.inr ?_)))
        exact (List.mem_cons.1 mark).resolve_left (Ne.symm single.1)
      · exact .inr (.inr ⟨rfl, starts_underscored.2 ⟨c, mem, .inl starts⟩⟩)

theorem dotted_moduleName (path : Dotted ['/', '-', '@'] cs) : Dotted [] (moduleName cs) := by
  obtain ⟨⟨front, whole⟩, single⟩ := exists_lastSegment cs
  rw [whole] at path
  exact dotted_underscored (dotted_of_append path) single

theorem toList_entityName_of_module {text : String} {path : List Char}
    (chars : text.toList = "module".toList ++ ':' :: path) (inPath : InPath true path)
    : (entityName text).toList
      = moduleName (path.takeWhile (!isMemberMark ·))
        ++ pointed (path.dropWhile (!isMemberMark ·)) := by
  have dotted := dotted_moduleName (dotted_takeWhile inPath).1
  rw [← pointed_of_dotted dotted, pointed, pointed, ← List.map_append, entityName, chars,
    String.toList_ofList]
  rfl

theorem toList_entityName_of_kind {text : String} {word path : List Char}
    (kind : word ∈ ["external".toList, "event".toList]) (chars : text.toList = word ++ ':' :: path)
    (inPath : InPath false path)
    : (entityName text).toList = pointed path := by
  have absent := colon_not_mem inPath
  have bare : without "event:" (without "external:" text.toList) = path := by
    simp only [List.mem_cons, List.not_mem_nil, or_false] at kind
    rcases kind with rfl | rfl
    · rw [chars]
      exact without_of_not_mem (by decide) absent
    · rw [chars]
      rfl
  rw [entityName, bare, withoutModule_of_not_mem absent, String.toList_ofList]
  rfl

/-- A namepath stands for identifiers with points between them exactly if it leads to a name. -/
theorem isPath_entityName_iff {text : String} (written : Written text.toList)
    : IsPath (entityName text) ↔ Leads text := by
  rw [isPath_iff, Leads]
  generalize chars : text.toList = cs at written
  cases written with
  | plain starts path =>
      have absent := colon_not_mem path
      have kindless : cs.dropWhile (· != ':') = [] := by
        rw [List.dropWhile_eq_nil_iff]
        intro c mem
        rw [bne_iff_ne]
        rintro rfl
        exact absent mem
      rw [kindless]
      subst chars
      rw [toList_entityName_of_not_mem absent, starts_pointed]
      simp [dotted_pointed path, starts]
  | @kind word path known inPath =>
      rw [pathKinds, List.mem_cons] at known
      rcases known with rfl | other
      · obtain ⟨front, back⟩ := dotted_takeWhile inPath
        have rest : ¬ Starts (pointed (path.dropWhile (!isMemberMark ·))) := by
          rw [starts_pointed]
          exact not_starts_dropWhile
        rw [toList_entityName_of_module chars inPath, starts_append_iff rest,
          and_iff_left (dotted_append (dotted_moduleName front) (dotted_pointed back))]
        exact starts_underscored
      · have plain : (word == "module".toList) = false := by
          simp only [List.mem_cons, List.not_mem_nil, or_false] at other
          rcases other with rfl | rfl <;> decide
        rw [plain] at inPath
        rw [toList_entityName_of_kind other chars inPath, starts_pointed,
          and_iff_left (dotted_pointed inPath)]
        simp only [List.mem_cons, List.not_mem_nil, or_false] at other
        rcases other with rfl | rfl <;> rfl

end entityName

end Typings.Hint
