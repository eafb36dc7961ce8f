import ProseScore.Yaml.Document

/-!
# Mappings of a settings file

A settings file stands for a mapping from texts to scalars.  An alias in it stands
for the scalar whose anchor it names.  A name can be given to several nodes, and
an alias means the number that the name has where the alias stands.
-/

namespace ProseScore.Yaml

abbrev Mapping :=
  List (Text × Scalar)

abbrev Names :=
  List (Text × Nat)

/-- The names with one more.  It gets the number of names known, and a name that
is known gets a new number. -/
def Names.add (known : Names) (name : Text) : Names :=
  (name, known.length) :: known.filter (·.1 ≠ name)

/-- What a node stands for: a scalar, or the node of a number. -/
inductive Referent where
  | scalar (scalar : Scalar)
  | node (number : Nat)
  deriving DecidableEq, Repr

structure Numbered where
  number : Option Nat
  referent : Referent
  deriving DecidableEq, Repr

def Node.number? (known : Names) (n : Node) : Option (Numbered × Names) :=
  match n.content, n.anchor with
  | .alias name, _ => (known.lookup name).map fun i => (⟨none, .node i⟩, known)
  | .scalar s, none => some (⟨none, .scalar s⟩, known)
  | .scalar s, some name => some (⟨some known.length, .scalar s⟩, known.add name)

def numberEntries? : Names → List Entry → Option (List (Numbered × Numbered))
  | _, [] => some []
  | known, (key, value) :: entries => do
    let (key, known) ← key.number? known
    let (value, known) ← value.number? known
    some ((key, value) :: (← numberEntries? known entries))

def lastScalar? (number : Nat) (ns : List Numbered) : Option Scalar :=
  (ns.reverse.find? (·.number = some number)).bind fun n =>
    match n.referent with
    | .scalar s => some s
    | .node _ => none

def Numbered.scalar? (others : List Numbered) (n : Numbered) : Option Scalar :=
  match n.referent with
  | .scalar s => some s
  | .node number => lastScalar? number others

/-- The mapping of a document.  The mapping itself can be named first, and an
alias of it stands for no scalar. -/
def Document.mapping? (d : Document) : Option Mapping := do
  let entries ← numberEntries? (d.anchor.toList.map (·, 0)) d.entries
  let nodes := entries.flatMap fun (key, value) => [key, value]
  entries.mapM fun (key, value) => do
    some ((← key.scalar? nodes).text, ← value.scalar? nodes)

def mapping? (file : Text) : Option Mapping :=
  (document? file).bind Document.mapping?

end ProseScore.Yaml
