/-! # Paths -/
namespace Reconciliation

/-- A path as written, without empty and single-dot parts; two leading slashes are kept apart
from one. -/
structure Path where
  root : String
  parts : List String
deriving DecidableEq

namespace Path

def splitSlashes : List Char → List (List Char)
  | [] => [[]]
  | '/' :: cs => [] :: splitSlashes cs
  | c :: cs => match splitSlashes cs with
    | part :: parts => (c :: part) :: parts
    | [] => [[c]]

def rootOf : List Char → String
  | '/' :: '/' :: '/' :: _ => "/"
  | '/' :: '/' :: _ => "//"
  | '/' :: _ => "/"
  | _ => ""

def ofString (s : String) : Path :=
  let parts := (splitSlashes s.toList).map String.ofList
  ⟨rootOf s.toList, parts.filter fun part => part != "" && part != "."⟩

def isAbsolute (p : Path) : Bool := p.root != ""

def text (p : Path) : String :=
  if p.root = "" ∧ p.parts = [] then "." else p.root ++ "/".intercalate p.parts

def hasNull (p : Path) : Bool := p.parts.any fun part => part.toList.contains '\x00'

def join (p q : Path) : Path :=
  if q.isAbsolute then q else ⟨p.root, p.parts ++ q.parts⟩

def parent (p : Path) : Path := ⟨p.root, p.parts.dropLast⟩

/-- Follows one part of a path, latest part first: two dots lead back. -/
def follow (done : List String) (part : String) : List String :=
  if part = ".." then done.tail else part :: done

def resolve (current p : Path) : Path :=
  let whole := current.join p
  ⟨whole.root, (whole.parts.foldl follow []).reverse⟩

end Path

end Reconciliation
