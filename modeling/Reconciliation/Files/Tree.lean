import Reconciliation.Files.Error
import Reconciliation.Report.Workbook
import Reconciliation.Value.Entries

/-! # Files and directories

A path leads through directories one part at a time. Two dots lead back, and only a directory
leads on. What an operation did to the files before it failed is not undone.
-/
namespace Reconciliation

inductive Document
  | text (content : String)
  | workbook (sheets : Workbook)

/-- Files by the texts of their absolute paths, and the directories there are. -/
structure FileTree where
  current : Path
  documents : Entries Document
  directories : List String

namespace FileTree

def placeText (place : List String) : String := "/" ++ "/".intercalate place

def isDirectoryAt (t : FileTree) (place : List String) : Bool :=
  place.isEmpty || t.directories.contains (placeText place)

def document? (t : FileTree) (place : List String) : Option Document :=
  t.documents.get? (placeText place)

def partLimit : Nat := 255

def pathLimit : Nat := 4095

def step (t : FileTree) (place : List String) (part : String) :
    Except FileError.Cause (List String) :=
  if t.isDirectoryAt place then
    if part = ".." then .ok place.dropLast
    else if partLimit < part.utf8ByteSize then .error .nameTooLong
    else .ok (place ++ [part])
  else if (t.document? place).isSome then .error .notDirectory
  else .error .notFound

/-- The place that a path leads to, whether or not there is anything. -/
def locate (t : FileTree) (p : Path) : Except FileError (List String) :=
  if p.hasNull then .error ⟨.nullCharacter, p⟩
  else if pathLimit < p.text.utf8ByteSize then .error ⟨.nameTooLong, p⟩
  else ((t.current.join p).parts.foldlM t.step []).mapError fun cause => ⟨cause, p⟩

def resolve (t : FileTree) (p : Path) : Path := Path.resolve t.current p

def resolved (t : FileTree) (p : Path) : Except FileError Path :=
  if p.hasNull then .error ⟨.nullCharacter, p⟩ else .ok (t.resolve p)

def isDirectory (t : FileTree) (p : Path) : Bool :=
  match t.locate p with
  | .ok place => t.isDirectoryAt place
  | .error _ => false

/-- Whether a path leads to a file or directory. Of a path that is too long this cannot be
told. -/
def has (t : FileTree) (p : Path) : Except FileError Bool :=
  match t.locate p with
  | .ok place => .ok (t.isDirectoryAt place || (t.document? place).isSome)
  | .error e => if e.cause = .nameTooLong then .error e else .ok false

def withLineFeeds : List Char → List Char
  | '\r' :: '\n' :: cs => '\n' :: withLineFeeds cs
  | '\r' :: cs => '\n' :: withLineFeeds cs
  | c :: cs => c :: withLineFeeds cs
  | [] => []

def read (t : FileTree) (p : Path) : Except FileError String := do
  let place ← t.locate p
  if t.isDirectoryAt place then .error ⟨.isDirectory, p⟩
  else match t.document? place with
    | some (.text content) => .ok (String.ofList (withLineFeeds content.toList))
    | some (.workbook _) => .error ⟨.notText, p⟩
    | none => .error ⟨.notFound, p⟩

def write (t : FileTree) (p : Path) (d : Document) : Except FileError FileTree := do
  let place ← t.locate p
  if t.isDirectoryAt place then .error ⟨.isDirectory, p⟩
  else .ok { t with documents := t.documents.set (placeText place) d }

def makeDirectory (t : FileTree) (p : Path) : Except FileError FileTree := do
  let place ← t.locate p
  if t.isDirectoryAt place || (t.document? place).isSome then .error ⟨.occupied, p⟩
  else .ok { t with directories := t.directories ++ [placeText place] }

end FileTree

structure Stored (ε : Type) where
  files : FileTree
  result : Except ε Unit

namespace Stored

def done {ε : Type} (t : FileTree) : Stored ε := ⟨t, .ok ()⟩

def failed {ε : Type} (t : FileTree) (e : ε) : Stored ε := ⟨t, .error e⟩

/-- A failure that leaves the files as they were. -/
def ofExcept {ε : Type} (t : FileTree) : Except ε FileTree → Stored ε
  | .ok t => done t
  | .error e => failed t e

def andThen {ε : Type} (s : Stored ε) (f : FileTree → Stored ε) : Stored ε :=
  match s.result with
  | .ok () => f s.files
  | .error _ => s

@[simp] theorem andThen_done {ε : Type} (t : FileTree) (f : FileTree → Stored ε) :
    (done t).andThen f = f t := rfl

@[simp] theorem andThen_failed {ε : Type} (t : FileTree) (e : ε) (f : FileTree → Stored ε) :
    (failed t e).andThen f = failed t e := rfl

def mapError {ε φ : Type} (f : ε → φ) (s : Stored ε) : Stored φ := ⟨s.files, s.result.mapError f⟩

end Stored

namespace FileTree

def ensureDirectory (t : FileTree) (p : Path) : Stored FileError :=
  match t.makeDirectory p with
  | .ok made => .done made
  | .error e => if t.isDirectory p then .done t else .failed t e

def makeDirectories (t : FileTree) (p : Path) : Stored FileError :=
  match t.makeDirectory p with
  | .error ⟨.notFound, _⟩ =>
    if _h : p.parts = [] then t.ensureDirectory p
    else (makeDirectories t p.parent).andThen fun t => t.ensureDirectory p
  | _ => t.ensureDirectory p
termination_by p.parts.length
decreasing_by
  have := List.length_pos_iff.mpr _h
  simp only [Path.parent, List.length_dropLast]
  omega

def save (t : FileTree) (p : Path) (d : Document) : Stored FileError :=
  (t.makeDirectories p.parent).andThen fun t => .ofExcept t (t.write p d)

end FileTree

end Reconciliation
