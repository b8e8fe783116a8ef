import RouteSync.Document.Json
import RouteSync.Document.Path
import RouteSync.Document.Toml.Reader
import RouteSync.Document.Yaml.Node
import RouteSync.Settings.Decode

/-!
# Where settings come from

Settings are read from a file, whose name tells its format, and from the environment.  Variables of
the environment take the place of what the file says; two underscores in their names lead down into
a table.
-/

namespace RouteSync

/-- The formats of files with settings. -/
inductive DocumentFormat where
  | toml
  | json
  | yaml
  deriving DecidableEq, Repr

namespace DocumentFormat

/-- What stands behind the last point of a file name, if something stands in front of the point. -/
def extension? (path : List Char) : Option (List Char) :=
  let name := (path.reverse.takeWhile (· != '/')).reverse
  let ending := (name.reverse.takeWhile (· != '.')).reverse
  if ending.length + 1 < name.length then some ending else none

/-- The format of a file with the given path. -/
def ofPath? (path : String) : Option DocumentFormat :=
  match (extension? path.toList).map String.ofList with
  | some "toml" => some .toml
  | some "json" => some .json
  | some "yaml" => some .yaml
  | some "yml" => some .yaml
  | _ => none

/-- Read a text in a format. -/
def read? : DocumentFormat → String → Option Document
  | .toml => Document.ofToml?
  | .json => Document.ofJson?
  | .yaml => Document.ofYaml?

end DocumentFormat

/-- A file with settings.  A file that is not there has no contents. -/
structure SettingsFile where
  path : String
  contents : Option String

/-- A variable of the environment. -/
structure Variable where
  name : String
  value : String

namespace Settings

/-- The fields that a text in some format has at its top.  What is no table has none. -/
def fieldsIn (format : DocumentFormat) (text : String) : Decoded (List (String × Document)) :=
  match format.read? text with
  | some d => .ok d.openTable
  | none => .error .malformed

/-- The fields of a file, which has to be there and to have a known format. -/
def fieldsOfFile (file : SettingsFile) : Decoded (List (String × Document)) :=
  match DocumentFormat.ofPath? file.path, file.contents with
  | some format, some text => fieldsIn format text
  | _, _ => .error .malformed

/-- What the names of variables with settings begin with, in lower case. -/
def variableMark : List Char :=
  ['i', 'l', 'p', '_']

/-- A character in lower case, as far as the result may stand in a path: the sign for kelvin is a
capital letter as well. -/
def loweredChar (c : Char) : Char :=
  if c = '\u212A' then 'k' else c.toLower

/-- The key that a name of a variable stands for: two underscores separate the steps of a path. -/
def separated : List Char → List Char
  | '_' :: '_' :: cs => '.' :: separated cs
  | c :: cs => loweredChar c :: separated cs
  | [] => []

/-- The field that a variable sets, if it is about settings. -/
def fieldOfVariable? (v : Variable) : Option (String × Document) :=
  let name := v.name.toList
  if (name.take variableMark.length).map Char.toLower = variableMark then
    some (String.ofList (separated (name.drop variableMark.length)), .text v.value)
  else none

/-- Settings out of several lists of fields, of which later ones take precedence. -/
def ofLayers (layers : List (List (String × Document))) : Decoded Settings :=
  ofDocument (layers.foldl Document.overlay (.table []))

/-- The settings in a TOML text. -/
def ofToml (text : String) : Decoded Settings := do
  ofLayers [← fieldsIn .toml text]

/-- The settings in a file, if one is given, and in the environment. -/
def load (file : Option SettingsFile) (environment : List Variable) : Decoded Settings := do
  let fromFile ←
    match file with
    | some file => fieldsOfFile file
    | none => pure []
  ofLayers [fromFile, environment.filterMap fieldOfVariable?]

end Settings

end RouteSync
