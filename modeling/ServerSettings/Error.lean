import ServerSettings.Decimal.Whole
import ServerSettings.Files.Refusal
import ServerSettings.Json.Basic

/-!
What can go wrong, by cause. The wording is in one place: `Error.message`.
-/

namespace ServerSettings

/-- The type that a setting is declared to have in a file. -/
inductive Want where
  | string
  | integer
  | boolean
  | object
  | array
  deriving DecidableEq, Repr

def Want.name : Want → String
  | .string => "string"
  | .integer => "integer"
  | .boolean => "boolean"
  | .object => "object"
  | .array => "array"

/-- Why a value does not fit a setting. -/
inductive CoercionReason where
  | mismatch (want : Want) (got : Json.Kind)
  | notText (typeName : String)
  | notInteger (text : String)
  | environment (name : String) (reason : CoercionReason)
  | stated (text : String)

def CoercionReason.text : CoercionReason → String
  | .mismatch want got => "expected " ++ want.name ++ ", got " ++ got.name
  | .notText typeName => "expected string, got " ++ typeName
  | .notInteger text => "cannot convert " ++ Text.quoted text ++ " to an integer"
  | .environment name reason => "environment variable " ++ name ++ ": " ++ reason.text
  | .stated text => text

/-- Why a path leads to no setting that holds a single value. -/
inductive PathReason where
  | emptySegment
  | group
  | collection
  | notGroup (stem : String)
  | noField (segment : String)
  | unresolvable
  | stated (text : String)
  deriving DecidableEq, Repr

def PathReason.text : PathReason → String
  | .emptySegment => "path must be a non-empty dot-separated field list"
  | .group => "path addresses a group, not a leaf"
  | .collection => "path addresses a map or list field, not a scalar leaf"
  | .notGroup stem => Text.quoted stem ++ " is not a group"
  | .noField segment => "no field named " ++ Text.quoted segment
  | .unresolvable => "unresolvable path"
  | .stated text => text

/-- Why no settings can be had from a file. -/
inductive DocumentReason where
  | noWorkingDirectory (fault : SystemFault)
  | inaccessible (file : String) (fault : SystemFault)
  | noneFound
  | missing (file : String)
  | unreadable (file : String) (fault : SystemFault)
  | undecodable (file : String) (text : String)
  | notObject (file : String)
  | stated (text : String)

def DocumentReason.text : DocumentReason → String
  | .noWorkingDirectory fault => "unable to determine working directory: " ++ fault.message
  | .inaccessible file fault => "unable to access config file " ++ file ++ ": " ++ fault.message
  | .noneFound => "no configuration file found"
  | .missing file => "config file not found: " ++ file
  | .unreadable file fault => "unable to read config file " ++ file ++ ": " ++ fault.message
  | .undecodable file text => "could not decode configuration " ++ file ++ ": " ++ text
  | .notObject file => "config root must be an object: " ++ file
  | .stated text => text

/-- What an operator without a file is told to do. -/
def documentHint : String :=
  "Cannot find configuration! Use --config parameter to point to a JSON file " ++
    "generated by \x60semaphore-config setup\x60."

/-- Why no storage backend is selected. -/
inductive BackendReason where
  | unsupported (name : String)
  | notFound
  | stated (text : String)

def BackendReason.text : BackendReason → String
  | .unsupported name => "unsupported database driver: " ++ name
  | .notFound => "database configuration not found"
  | .stated text => text

/-- The first five are failures of a configuration, which an operator can mend. `address` tells of a
defect in a table of settings, and `frozen` of a write to settings that are final. -/
inductive Error where
  | coercion (path : String) (reason : CoercionReason)
  | document (reason : DocumentReason) (hint : Option String)
  | validation (messages : List String)
  | backend (reason : BackendReason)
  | configuration (text : String)
  | address (path : String) (reason : PathReason)
  | frozen (field : String)
  | number (fault : NumberFault)
  | nesting (text : String)
  | system (fault : SystemFault)
  | nullByte
  | noHome
  | noKeyLength
  | randomLength (got asked : Nat)
  | notBackend (name : String)
  | url (text : String)
  | missingKey (key : String)
  | readOnlyMap
  | readOnlyList
  | outOfRange

namespace Error

def isConfiguration : Error → Bool
  | .coercion _ _ | .document _ _ | .validation _ | .backend _ | .configuration _ => true
  | _ => false

/-- Every problem on a line of its own. -/
def validationText (messages : List String) : String :=
  "invalid config:\n" ++
    (if messages.isEmpty then "unknown validation failure"
     else String.intercalate "\n" (messages.map ("- " ++ ·)))

def message : Error → String
  | .coercion path reason => path ++ ": " ++ reason.text
  | .document reason hint =>
    match hint with
    | some hint => reason.text ++ "\n" ++ hint
    | none => reason.text
  | .validation messages => validationText messages
  | .backend reason => reason.text
  | .configuration text => text
  | .address path reason => "invalid config attribute " ++ Text.quoted path ++ ": " ++ reason.text
  | .frozen field => "cannot assign to field " ++ Text.quoted field ++ " of a resolved configuration"
  | .number fault => fault.message
  | .nesting text => text
  | .system fault => fault.message
  | .nullByte => "embedded null byte"
  | .noHome => "Could not determine home directory."
  | .noKeyLength => "key length must be > 0"
  | .randomLength got asked =>
    "random source returned " ++ toString got ++ " bytes, expected " ++ toString asked
  | .notBackend name => Text.quoted name ++ " is not a valid Dialect"
  | .url text => text
  | .missingKey key => Text.quoted key
  | .readOnlyMap => "the map is read-only"
  | .readOnlyList => "the list is read-only"
  | .outOfRange => "list assignment index out of range"

/-- The name of the class of failures that an error belongs to. -/
def title : Error → String
  | .coercion _ _ => "CoercionError"
  | .document _ _ => "ConfigDecodeError"
  | .validation _ => "ConfigValidationError"
  | .backend _ => "DialectError"
  | .configuration _ => "ConfigError"
  | .address _ _ => "SchemaError"
  | .frozen _ => "FrozenInstanceError"
  | .number _ => "ValueError"
  | .nesting _ => "RecursionError"
  | .system fault => fault.refusal.title
  | .nullByte => "ValueError"
  | .noHome => "RuntimeError"
  | .noKeyLength | .randomLength _ _ | .notBackend _ | .url _ => "ValueError"
  | .missingKey _ => "KeyError"
  | .readOnlyMap | .readOnlyList => "TypeError"
  | .outOfRange => "IndexError"

end Error

end ServerSettings
