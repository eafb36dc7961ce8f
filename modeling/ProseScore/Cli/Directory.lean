import ProseScore.Text.Basic

/-!
# The working directory

The command names its files by paths.  A path is followed name by name, from the
working directory or, if it begins with a slash, from outside of it.  What is
outside is not known, so nothing but directories is found there.
-/

namespace ProseScore.Cli

inductive FileFault where
  | missing
  | directory
  /-- A path goes on behind a file. -/
  | notDirectory
  | nameTooLong
  | notText
  | other (description : String)

def FileFault.message : FileFault → String
  | missing => "No such file or directory (os error 2)"
  | directory => "Is a directory (os error 21)"
  | notDirectory => "Not a directory (os error 20)"
  | nameTooLong => "File name too long (os error 36)"
  | notText => "stream did not contain valid UTF-8"
  | other description => description

def textOfBytes (bytes : ByteArray) : Except FileFault Text :=
  match String.fromUTF8? bytes with
  | some s => .ok s.toList
  | none => .error .notText

/-! ## Paths -/

/-- The names in a path, with an empty one at every end that is a slash. -/
def names : Text → List Text
  | [] => [[]]
  | c :: r =>
    match c, names r with
    | '/', rest => [] :: rest
    | c, [] => [[c]]
    | c, name :: rest => (c :: name) :: rest

def staysHere (name : Text) : Bool :=
  name = [] || name = ['.']

def above : Text :=
  ['.', '.']

def byteCount (s : Text) : Nat :=
  (String.ofList s).utf8ByteSize

def isTooLong (name : Text) : Bool :=
  255 < byteCount name

/-! ## Directories -/

inductive Item where
  | file (bytes : ByteArray)
  | directory

/-- A directory, by the names that lead to what is in it and below. -/
structure Directory where
  items : List (List Text × Item)

inductive Location where
  | inside (names : List Text)
  | outside

namespace Directory

/-- The directory of named items.  A slash in a name leads further down. -/
def ofList (named : List (Text × Item)) : Directory :=
  ⟨named.map fun (path, item) => ((names path).filter (!staysHere ·), item)⟩

/-- What names lead to.  What leads on to other items is a directory. -/
def item? (d : Directory) (here : List Text) : Option Item :=
  match d.items.lookup here with
  | some item => some item
  | none =>
    if here.isEmpty || d.items.any (fun (path, _) => here.isPrefixOf path) then some .directory
    else none

def follow (d : Directory) : Location → Text → Except FileFault Location
  | .outside, name =>
    if staysHere name || name = above then .ok .outside
    else if isTooLong name then .error .nameTooLong
    else .error .missing
  | .inside here, name =>
    match d.item? here with
    | some .directory =>
      if staysHere name then .ok (.inside here)
      else if name = above then .ok (if here.isEmpty then .outside else .inside here.dropLast)
      else if isTooLong name then .error .nameTooLong
      else if (d.item? (here ++ [name])).isSome then .ok (.inside (here ++ [name]))
      else .error .missing
    | _ => .error .notDirectory

/-- Where a path leads.  It has fewer than 4096 bytes. -/
def locate (d : Directory) (path : Text) : Except FileFault Location :=
  if path.isEmpty then .error .missing
  else if 4096 ≤ byteCount path then .error .nameTooLong
  else
    (names path).foldlM d.follow (if path.head? = some '/' then .outside else .inside [])

def read (d : Directory) (path : Text) : Except FileFault Text := do
  match ← d.locate path with
  | .outside => .error .directory
  | .inside here =>
    match d.item? here with
    | some (.file bytes) => textOfBytes bytes
    | _ => .error .directory

end Directory

end ProseScore.Cli
