import RequestLog.Text.Blank
import RequestLog.Text.Search

/-!
# Paths as they are given

A path on the command line or in a configuration file may start at the home
directory, written `~`, or at the current directory, where every relative path
starts. Blanks around it do not count. `Places.expand` gives the absolute path
that is meant; it does not look at any file, and dots inside of a path stay.

A user is taken to have a home directory, and a process to have a current one; what is done
without them is left out.
-/

namespace RequestLog.Config

structure Places where
  home : String
  current : String
  data : String

def isAbsolute (path : String) : Bool := Text.startsWith "/" path

/-- A path below a directory; an absolute path stands for itself. -/
def join (dir path : String) : String :=
  if isAbsolute path then path
  else if dir.isEmpty || dir.toList.getLast? = some '/' then dir ++ path
  else dir ++ "/" ++ path

namespace Places

def expand (p : Places) (text : String) : String :=
  let path := Text.trim text.toList
  if path.isEmpty then p.current
  else if path = ['~'] then p.home
  else match Text.after? ['~', '/'] path with
    | some rest => join p.home (String.ofList rest)
    | none => join p.current (String.ofList path)

end Places

def dataVariable : String := "XDG_DATA_HOME"

/-- The directory of data: where the variable for it names an absolute path, that one. -/
def dataDirectory (home : String) (given : Option String) : String :=
  match given.filter isAbsolute with
  | some dir => dir
  | none => join home ".local/share"

end RequestLog.Config
