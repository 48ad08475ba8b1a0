import ServerSettings.Text.Quoted

/-!
Why the system refuses an operation on a file.
-/

namespace ServerSettings

inductive Refusal where
  | missing
  | present
  | notDirectory
  | isDirectory
  | denied
  | nameTooLong
  | tooManyLinks
  | other (number : Nat) (text : String)
  deriving DecidableEq, Repr

namespace Refusal

def number : Refusal → Nat
  | .missing => 2
  | .denied => 13
  | .present => 17
  | .notDirectory => 20
  | .isDirectory => 21
  | .nameTooLong => 36
  | .tooManyLinks => 40
  | .other n _ => n

def text : Refusal → String
  | .missing => "No such file or directory"
  | .denied => "Permission denied"
  | .present => "File exists"
  | .notDirectory => "Not a directory"
  | .isDirectory => "Is a directory"
  | .nameTooLong => "File name too long"
  | .tooManyLinks => "Too many levels of symbolic links"
  | .other _ text => text

/-- The refusals that have a name. -/
def named : List Refusal :=
  [.missing, .denied, .present, .notDirectory, .isDirectory, .nameTooLong, .tooManyLinks]

/-- The refusal that a system gives by its number. -/
def ofNumber (n : Nat) (text : String) : Refusal :=
  (named.find? (·.number = n)).getD (.other n text)

theorem number_ofNumber (n : Nat) (text : String) : (ofNumber n text).number = n := by
  unfold ofNumber
  cases found : named.find? (·.number = n) with
  | none => rfl
  | some r => simpa using List.find?_some found

/-- The name of the class of failures that a refusal belongs to. -/
def title : Refusal → String
  | .missing => "FileNotFoundError"
  | .denied => "PermissionError"
  | .present => "FileExistsError"
  | .notDirectory => "NotADirectoryError"
  | .isDirectory => "IsADirectoryError"
  | _ => "OSError"

end Refusal

/-- A refused operation on a file, or on none when it is about the working directory. -/
structure SystemFault where
  refusal : Refusal
  file : Option String := none
  deriving DecidableEq, Repr

def SystemFault.message (f : SystemFault) : String :=
  let text := "[Errno " ++ toString f.refusal.number ++ "] " ++ f.refusal.text
  match f.file with
  | some file => text ++ ": " ++ Text.quoted file
  | none => text

end ServerSettings
