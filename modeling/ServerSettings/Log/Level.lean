import ServerSettings.Text.Blank
import ServerSettings.Text.LetterCase

/-!
Levels of log records: numbers, some of which have names.
-/

namespace ServerSettings.Log

/-- Names that are understood; where two stand for one number the first is the one shown. -/
def levelNames : List (String × Int) :=
  [("CRITICAL", 50), ("FATAL", 50), ("ERROR", 40), ("WARNING", 30), ("WARN", 30), ("INFO", 20),
   ("DEBUG", 10), ("NOTSET", 0)]

def warning : Int := 30

def levelName (level : Int) : String :=
  match levelNames.find? (·.2 = level) with
  | some p => p.1
  | none => "Level " ++ toString level

/-- A level as a setup gives it. -/
inductive LevelChoice where
  | number (n : Int)
  | name (s : String)

/-- Names are taken in any letter case and with blanks around them. -/
def levelOfName? (s : String) : Option Int :=
  let wanted := Text.upper (Text.strip s)
  (levelNames.find? (·.1 = wanted)).map (·.2)

end ServerSettings.Log
