import TypedClient.Text.Segments

/-!
# Paths

A path is absolute or starts at the working directory, and has parts with slashes between them.
Parts that are empty or a single point say nothing and are left out; two points stay, because what
they mean depends on the directories that exist.

* `Path.ofText`, `Path.text`: a path as it is written.
* `Path.join`: a path that starts at another one.
* `Path.parent`, `Path.name`, `Path.ending`: the parts of a path.
-/

namespace TypedClient

/-- A path; `root` is empty, or the slashes with which an absolute path starts. -/
structure Path where
  root : String
  parts : List String
deriving Repr, DecidableEq, Inhabited

namespace Path

/-- Does a part of a path say where to go? -/
def counts (part : List Char) : Bool :=
  !part.isEmpty && part != ['.']

/-- The slashes that an absolute path starts with: exactly two stay two, any other number is one. -/
def rootOf (s : List Char) : String :=
  match (s.takeWhile (· = '/')).length with
  | 0 => ""
  | 2 => "//"
  | _ => "/"

/-- The path that a text writes. -/
def ofText (s : String) : Path :=
  ⟨rootOf s.toList, ((Text.segments '/' s.toList).filter counts).map String.ofList⟩

/-- The text of a path; the working directory is a single point. -/
def text (p : Path) : String :=
  let s := p.root ++ Text.joinWith "/" p.parts
  if s.isEmpty then "." else s

/-- Is the path absolute? -/
def isAbsolute (p : Path) : Bool := !p.root.isEmpty

/-- The path that starts where another one leads, unless it is absolute itself. -/
def join (base p : Path) : Path :=
  if p.isAbsolute then p else ⟨base.root, base.parts ++ p.parts⟩

/-- The path without its last part. -/
def parent (p : Path) : Path :=
  { p with parts := p.parts.dropLast }

/-- The paths that a path leads through, itself included. -/
def stages (p : Path) : List Path :=
  (List.range (p.parts.length + 1)).map fun n => { p with parts := p.parts.take n }

/-- The last part; it is empty if there is none. -/
def name (p : Path) : String :=
  p.parts.getLastD ""

/-- The end of the name from its last point on.  A point at either end of the name starts none. -/
def ending (p : Path) : String :=
  let reversed := p.name.toList.reverse
  let behind := reversed.takeWhile (· ≠ '.')
  if behind.isEmpty || reversed.length ≤ behind.length + 1 then ""
  else String.ofList ('.' :: behind.reverse)

/-- A path that is not absolute goes on from the other path. -/
theorem join_of_relative {base p : Path} (h : p.isAbsolute = false) :
    base.join p = ⟨base.root, base.parts ++ p.parts⟩ := by
  simp [join, h]

end Path

end TypedClient
