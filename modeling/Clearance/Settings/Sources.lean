import Clearance.Files
import Clearance.Json.Reader
import Clearance.Settings.Basic
import Clearance.Settings.Setting
import Clearance.Toml.Reader
import Clearance.Yaml.Core

/-!
# Clearance — Settings — Sources

Settings come from their defaults, then from a file in one of three formats, then from the
environment; the later source wins.  Names are taken in lower case, and unknown ones do not matter.
-/

namespace Clearance

inductive SettingsError where
  | noCache
  | noMailbox
  /-- The file cannot be read, or a setting is not of its type. -/
  | unreadable
  deriving DecidableEq, Repr

namespace SettingsError

/-- The message, of the errors that have one of their own. -/
def message? : SettingsError → Option String
  | .noCache => some "cache_capacity must be at least 1"
  | .noMailbox => some "mailbox_capacity must be at least 1"
  | .unreadable => none

end SettingsError

/-! ### Files -/

/-- Raw settings by name. -/
abbrev RawSettings := List (String × Setting)

namespace RawSettings

def ofTomlValue : Toml.Value → Setting
  | .bool b => .bool b
  | .int n => .int n
  | .double d => .double d
  | .text s => .text s
  | .array _ | .table _ _ | .tables _ => .collection

def ofToml? (text : String) : Option RawSettings :=
  (Toml.read? text).map fun es => es.map fun e => (e.1, ofTomlValue e.2)

/-- A JSON value; an integer too large for 63 bits is taken as a double. -/
def ofJsonValue : Json → Setting
  | .null => .nothing
  | .bool b => .bool b
  | .int n => if n < Nat.pow 2 63 then .int n else .double (.ofFloat (Float.ofInt n))
  | .double d => .double d
  | .str s => .text s
  | .arr _ | .obj _ => .collection

def ofJson? (text : String) : Option RawSettings :=
  match Json.parse? text with
  | some (.obj fields) => some (fields.map fun f => (f.1, ofJsonValue f.2))
  | _ => none

/-- Integers in YAML settings: hexadecimal, octal, or decimal with a sign or leading zeros. -/
def yamlInt? (s : String) : Option Int :=
  let n := match s.toList with
    | '0' :: 'x' :: rest => (Yaml.Core.natOfBase? 16 rest).map Int.ofNat
    | '0' :: 'o' :: rest => (Yaml.Core.natOfBase? 8 rest).map Int.ofNat
    | _ => Setting.intOfText? s
  n.filter fun n => -(Nat.pow 2 63 : Int) ≤ n ∧ n < Nat.pow 2 63

/-- A plain scalar in YAML settings, whose words are in lower case only. -/
def ofPlainScalar (s : String) : Option Setting :=
  if s == "" || s == "~" || s == "null" then some .nothing
  else if s == "true" then some (.bool true)
  else if s == "false" then some (.bool false)
  else if Yaml.Core.isInfinityWord (s.dropWhile fun c => c == '+' || c == '-').toString then none
  else if s == ".nan" || s == ".NAN" then none
  else
    match yamlInt? s with
    | some n => some (.int n)
    | none =>
      match (Setting.namedDouble? s).or (Double.parse? s.toList) with
      | some d => some (.double d)
      | none => some (.text s)

def ofYamlNode (t : Yaml.Tree) : Yaml.Node → Option Setting
  | .scalar s .plain none => ofPlainScalar s
  | .scalar s _ _ => some (.text s)
  | .alias k =>
    match t.anchors.lookup k with
    | some (.scalar s .plain none) => ofPlainScalar s
    | some (.scalar s _ _) => some (.text s)
    | _ => some .collection
  | _ => some .collection

def ofYaml? (text : String) : Option RawSettings := do
  if (← Yaml.tokens? text.toList).isEmpty then some []
  else
    let t ← Yaml.Tree.ofText? text
    match t.root with
    | .map entries _ =>
      entries.mapM fun e =>
        match e.1 with
        | .scalar k _ _ => (ofYamlNode t e.2).map fun v => (k, v)
        | _ => none
    | _ => none

/-- The settings of a file, in the format that its extension names. -/
def ofFile? (name : String) (text : String) : Option RawSettings :=
  match FileTree.extension? name with
  | some "toml" => ofToml? text
  | some "json" => ofJson? text
  | some "yaml" | some "yml" => ofYaml? text
  | _ => none

/-- What the names of environment variables start with, in any case of letters. -/
def environmentMark : String := "tradeflow_"

/-- The settings among environment variables. -/
def ofEnvironment (environment : List (String × String)) : RawSettings :=
  environment.filterMap fun (name, value) =>
    let name := Text.lowerAscii name
    if name.startsWith environmentMark then
      some ((name.drop environmentMark.length).toString, .ofEnvironment value)
    else none

/-- The last setting of a name. -/
def find? (raw : RawSettings) (name : String) : Option Setting :=
  (raw.reverse.find? fun e => Text.lowerAscii e.1 == name).map Prod.snd

end RawSettings

/-! ### Loading -/

namespace Settings

/-- A setting of a type, or its default where it is not given. -/
def pick {α : Type} (raw : RawSettings) (name : String) (convert : Setting → Option α) (usual : α) :
    Option α :=
  match raw.find? name with
  | some s => convert s
  | none => some usual

/-- A text that may be given as nothing. -/
def optionalText? : Setting → Option (Option String)
  | .nothing => some none
  | s => s.text?.map some

/-- The settings that raw ones stand for. -/
def ofRaw? (raw : RawSettings) : Option Settings := do
  let usual : Settings := {}
  return {
    cacheCapacity := ← pick raw "cache_capacity" Setting.natural? usual.cacheCapacity
    mailboxCapacity := ← pick raw "mailbox_capacity" Setting.natural? usual.mailboxCapacity
    outboundTimeoutSecs := ←
      pick raw "outbound_timeout_secs" Setting.natural? usual.outboundTimeoutSecs
    bindAddress := ← pick raw "bind_address" Setting.text? usual.bindAddress
    definitionsDir := ← pick raw "definitions_dir" optionalText? none
    logFilter := ← pick raw "log_filter" Setting.text? usual.logFilter
    jsonLogs := ← pick raw "json_logs" Setting.boolean? usual.jsonLogs }

/-- Checks that both capacities let something in. -/
def check (s : Settings) : Except SettingsError Settings :=
  if s.cacheCapacity = 0 then .error .noCache
  else if s.mailboxCapacity = 0 then .error .noMailbox
  else .ok s

/-- Loads the settings.  A file that is named has to be there; `none` for its text means that it is
not. -/
def load (file : Option (String × Option String)) (environment : List (String × String)) :
    Except SettingsError Settings :=
  let fromFile : Option RawSettings := match file with
    | none => some []
    | some (_, none) => none
    | some (name, some text) => RawSettings.ofFile? name text
  match fromFile.bind fun raw => ofRaw? (raw ++ RawSettings.ofEnvironment environment) with
  | none => .error .unreadable
  | some s => s.check

end Settings

end Clearance
