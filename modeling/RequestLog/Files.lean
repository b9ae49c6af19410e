/-!
# Files

What the library needs to know of files: whether one is there, its text, and that
a folder can be made. Everything is asked for under a path, and a relative path
starts at the current directory.
-/

namespace RequestLog

structure Files (m : Type → Type) where
  exists? : String → m Bool
  read : String → m (Except String String)
  /-- Makes a folder and those above it, as far as they are not there. -/
  makeFolder : String → m (Except String Unit)

/-- The folder that a file lies in; none for the root and for a bare name. -/
def folderOf? (path : String) : Option String :=
  let isSlash (c : Char) : Bool := c = '/'
  let steps := path.toList.reverse.dropWhile isSlash
  let above := steps.dropWhile fun c => !isSlash c
  if above.isEmpty then none
  else
    let folder := (above.dropWhile isSlash).reverse
    some (if folder.isEmpty then "/" else String.ofList folder)

def Files.makeRoom {m : Type → Type} [Monad m] (files : Files m) (path : String) :
    m (Except String Unit) :=
  match folderOf? path with
  | some folder => files.makeFolder folder
  | none => pure (.ok ())

end RequestLog
