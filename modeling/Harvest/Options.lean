import Harvest.Extract
import Harvest.Filter.Standard
import Harvest.Validation.Issue

/-
  Options of an extraction, validated.

  An option is given under its name or its old name, the name winning where both are there. What is not given has its
  standard value.
    1. `Options.validate` checks a table of settings; all complaints are listed, in the order of the options.
    2. `Options.build` takes the shapes that callers use: options made before, a table of settings, or a table of
       filters alone, with further settings on top.
-/
namespace Harvest

/-- Something given for an option. -/
inductive Setting where
  | plain (v : Value)
  | table (entries : List (String × Setting))
  | filter (f : Filter)
  | pattern (e : Regex.Expression)
  | hook (h : Hook)

/-- Settings by name. -/
abbrev Settings := List (String × Setting)

namespace Setting

/-- The name of the kind of a setting, as messages show it. -/
def kindShown : Setting → String
  | plain v => "<class '" ++ v.kind ++ "'>"
  | table _ => "<class 'dict'>"
  | filter _ | hook _ => "<class 'function'>"
  | pattern _ => "<class 're.Pattern'>"

end Setting

/-- A filter as a hook: it takes one argument too many whatever it is. -/
def Filter.asHook (f : Filter) : Hook :=
  let fault : Fault := .filter (.tooMany ⟨f.label, [], 0⟩ 3)
  ⟨fun _ _ => .error fault, fun _ _ => .error fault⟩

/-- A hook as a filter: it lacks the arguments of a hook. -/
def Hook.asFilter (_ : Hook) : Filter := ⟨"hook", fun _ args => .error (.tooMany ⟨"hook", [], 0⟩ (1 + args.length))⟩

/-- The options of an extraction. -/
structure Options where
  dialect : Dialect
  queryHook : Option Hook := none
  mappingHook : Option Hook := none

/-- Why settings are no options. -/
inductive OptionsFault where
  | invalid (issues : List Issue)
  /-- A pattern is neither a text nor an expression. -/
  | notPattern (kind : String)
  /-- A pattern asks for too many repetitions. -/
  | countTooLarge

namespace Options

/-! ## Standard values -/

/-- A selector, then an attribute in square brackets; both may be missing. -/
def bracketPattern : String := "^([^\\[]+)?(?:\\[([^\\[\\]]+)\\])?$"

/-- A selector, then an attribute behind an at sign. -/
def atPattern : String := "^([^@]+)?(?:@(\\S+))?$"

/-- A selector, then an attribute in braces. -/
def bracePattern : String := "^([^\\\x7b]+)?(?:\\\x7b([^\\\x7b\\\x7d]+)\\\x7d)?$"

/-- A bar, with blanks around it. -/
def barPattern : String := "\\s*\\|\\s*"

/-- The expression that a text writes down, or one that matches nothing but the empty text. -/
def expressionOf (s : String) : Regex.Expression :=
  match Regex.Expression.read s with
  | .ok e => e
  | .error _ => ⟨s, .nothing, 0⟩

/-- The standard dialect, without filters. -/
def standardDialect : Dialect := ⟨[], expressionOf bracketPattern, expressionOf barPattern, ":"⟩

/-- The standard options, without filters. -/
def standard : Options := ⟨standardDialect, none, none⟩

/-! ## Validation -/

/-- The names of the options, each with its old name if it has one, in order. -/
def names : List (String × Option String) :=
  [("filters", none), ("selector_pattern", some "rselector"), ("filter_separator", some "rfilters"),
   ("argument_separator", none), ("selector_hook", some "selector_handler"), ("object_hook", some "object_handler")]

/-- All names under which options are given. -/
def allNames : List String := names.flatMap fun (n, old) => n :: old.toList

/-- What is given for an option, and under which name. -/
def pick? (es : Settings) (name : String) (old : Option String) : Option (String × Setting) :=
  match es.lookup name, old with
  | some s, _ => some (name, s)
  | none, some o => (es.lookup o).map (o, ·)
  | none, none => none

/-- The filters of a table. -/
def checkTable (path : List String) : Settings → Checked Registry
  | [] => .ok []
  | (k, s) :: es =>
    match s, checkTable path es with
    | .filter f, .ok r => .ok ((k, f) :: r)
    | .hook h, .ok r => .ok ((k, h.asFilter) :: r)
    | .filter _, .error is | .hook _, .error is => .error is
    | _, rest => .error (⟨.notCallable, path ++ [k]⟩ :: Checked.issues rest)

/-- The filters given. -/
def checkFilters : Option (String × Setting) → Checked Registry
  | none => .ok []
  | some (k, .table es) => checkTable [k] es
  | some (k, _) => Checked.fail .notTable [k]

/-- The expression given. -/
def checkPattern (standard : Regex.Expression) (given : Option (String × Setting)) :
    Except OptionsFault (Checked Regex.Expression) :=
  match given with
  | none => .ok (.ok standard)
  | some (_, .pattern e) => .ok (.ok e)
  | some (k, .plain (.text s)) =>
    match Regex.Expression.read s with
    | .ok e => .ok (.ok e)
    | .error .countTooLarge => .error .countTooLarge
    | .error f =>
      .ok (Checked.fail (.rule ("Invalid regular expression " ++ Text.quotedString s ++ ": " ++ f.message s.toList)) [k])
  | some (_, s) => .error (.notPattern s.kindShown)

/-- The expression given, which has to have two groups. -/
def checkSelectorPattern (standard : Regex.Expression) (given : Option (String × Setting)) :
    Except OptionsFault (Checked Regex.Expression) := do
  match ← checkPattern standard given, given with
  | .ok e, some (k, _) =>
    if e.groups < 2 then
      return Checked.fail (.rule "selector_pattern needs two groups: (selector) and (attribute)") [k]
    else return .ok e
  | c, _ => return c

/-- The text given, which may not be empty. -/
def checkSeparator (standard : String) : Option (String × Setting) → Checked String
  | none => .ok standard
  | some (k, .plain (.text s)) => if s.isEmpty then Checked.fail .emptyText [k] else .ok s
  | some (k, _) => Checked.fail .notText [k]

/-- The hook given; absence means none. -/
def checkHook : Option (String × Setting) → Checked (Option Hook)
  | none => .ok none
  | some (_, .plain .null) => .ok none
  | some (_, .hook h) => .ok (some h)
  | some (_, .filter f) => .ok (some f.asHook)
  | some (k, _) => Checked.fail .notCallable [k]

/-- The options that a table of settings gives. -/
def validate (es : Settings) : Except OptionsFault Options := do
  let filters := checkFilters (pick? es "filters" none)
  let selector ← checkSelectorPattern standardDialect.selectorPattern (pick? es "selector_pattern" (some "rselector"))
  let separator ← checkPattern standardDialect.filterSeparator (pick? es "filter_separator" (some "rfilters"))
  let argument := checkSeparator standardDialect.argumentSeparator (pick? es "argument_separator" none)
  let query := checkHook (pick? es "selector_hook" (some "selector_handler"))
  let mapping := checkHook (pick? es "object_hook" (some "object_handler"))
  match filters, selector, separator, argument, query, mapping with
  | .ok f, .ok p, .ok s, .ok a, .ok q, .ok m => return ⟨⟨f, p, s, a⟩, q, m⟩
  | _, _, _, _, _, _ =>
    throw (.invalid (filters.issues ++ selector.issues ++ separator.issues ++ argument.issues ++ query.issues
      ++ mapping.issues))

/-! ## Building -/

/-- What a caller gives first. -/
inductive Given where
  | nothing
  | options (o : Options)
  | table (es : Settings)

/-- Settings with others on top. -/
def update (es : Settings) : Settings → Settings
  | [] => es
  | (k, s) :: more =>
    let es := if es.any (·.1 == k) then es.map fun (l, t) => (l, if l == k then s else t) else es ++ [(k, s)]
    update es more

/-- A hook as a setting. -/
def hookSetting : Option Hook → Setting
  | none => .plain .null
  | some h => .hook h

/-- Options as a table of settings. -/
def toSettings (o : Options) : Settings :=
  [("filters", .table (o.dialect.filters.map fun (k, f) => (k, .filter f))),
   ("selector_pattern", .pattern o.dialect.selectorPattern), ("filter_separator", .pattern o.dialect.filterSeparator),
   ("argument_separator", .plain (.text o.dialect.argumentSeparator)), ("selector_hook", hookSetting o.queryHook),
   ("object_hook", hookSetting o.mappingHook)]

/-- The settings that stand behind what a caller gives first. A table without the name of any option is a table of
filters. -/
def Given.settings : Given → Settings
  | nothing => []
  | options o => o.toSettings
  | table es => if es.any fun (k, _) => allNames.contains k then es else [("filters", .table es)]

/-- The options that a caller gives, with further settings on top. -/
def build (given : Given) (overrides : Settings) : Except OptionsFault Options :=
  match given, overrides with
  | .options o, [] => .ok o
  | _, _ => validate (update given.settings overrides)

/-- How schemas are worked through under these options. -/
def engine (o : Options) : Engine := ⟨o.dialect, o.queryHook.map (·.onQuery), o.mappingHook.map (·.onMapping)⟩

end Options
end Harvest
