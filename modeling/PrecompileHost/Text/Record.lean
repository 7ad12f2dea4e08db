/-!
Values as one line of text: records of named fields, variants with one argument, lists and maps.
-/

namespace PrecompileHost.Text

def field (f : String × String) : String :=
  f.1 ++ ": " ++ f.2

def record (name : String) (fields : List (String × String)) : String :=
  name ++ " \x7b " ++ ", ".intercalate (fields.map field) ++ " \x7d"

/-- A record with more fields than are shown. -/
def partialRecord (name : String) (fields : List (String × String)) : String :=
  name ++ " \x7b " ++ ", ".intercalate (fields.map field ++ [".."]) ++ " \x7d"

def variant (name argument : String) : String :=
  name ++ "(" ++ argument ++ ")"

def list (items : List String) : String :=
  "[" ++ ", ".intercalate items ++ "]"

def map (entries : List (String × String)) : String :=
  "\x7b" ++ ", ".intercalate (entries.map field) ++ "\x7d"

end PrecompileHost.Text
