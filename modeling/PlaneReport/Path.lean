import PlaneReport.Text.Blank

/-!
# Paths

A path is a text whose pieces are parted by slashes.  Paths are joined and cut as texts, without a
look at any file: `ancestors` lists a path and what is left as its last pieces go, and `relativeTo`
leads from one absolute path to another.
-/

namespace PlaneReport
namespace Path

def isAbsolute (path : String) : Bool :=
  path.toList.head? == some '/'

/-- What stands between the slashes. -/
def pieces (path : String) : List String :=
  (Text.splitAt '/' path.toList).map String.ofList

/-- A path further down; an absolute one stands for itself. -/
def join (base path : String) : String :=
  if isAbsolute path || base.isEmpty then path
  else if base.toList.getLast? == some '/' then base ++ path
  else base ++ "/" ++ path

/-- A path out of pieces in reverse order. -/
def ofReversed (absolute : Bool) (reversed : List String) : String :=
  (if absolute then "/" else "") ++ "/".intercalate reversed.reverse

/-- Whether the last of reversed pieces leads nowhere.  A point leads nowhere unless a relative path
starts with it. -/
def isIdle (absolute : Bool) : List String → Bool
  | [] => false
  | piece :: before => piece == "" || (piece == "." && (absolute || !before.isEmpty))

/-- Reversed pieces without those at the end that lead nowhere. -/
def trimmed (absolute : Bool) : List String → List String
  | [] => []
  | piece :: before =>
    if isIdle absolute (piece :: before) then trimmed absolute before else piece :: before

/-- The paths that are left when reversed pieces go, one after another. -/
def above (absolute : Bool) : List String → List String
  | [] => []
  | _ :: before =>
    if isIdle absolute before then above absolute before
    else ofReversed absolute before :: above absolute before

/-- A path, followed by all paths above it.  Those above a relative path end in the empty path. -/
def ancestors (path : String) : List String :=
  let absolute := isAbsolute path
  let reversed := (if absolute then (pieces path).drop 1 else pieces path).reverse
  path :: above absolute (trimmed absolute reversed)

def parent? (path : String) : Option String :=
  (ancestors path)[1]?

/-- What an absolute path is made of: the root and the pieces that lead on. -/
def components (path : String) : List String :=
  "/" :: (pieces path).filter fun piece => piece != "" && piece != "."

/-- Both lists without what they start with in common. -/
def withoutCommon : List String → List String → List String × List String
  | a :: as, b :: bs => if a = b then withoutCommon as bs else (a :: as, b :: bs)
  | as, bs => (as, bs)

/-- The components that lead from one absolute path to another. -/
def relativeTo (base path : String) : List String :=
  let (down, up) := withoutCommon (components path) (components base)
  up.map (fun _ => "..") ++ down

/-- How messages show an absolute path: as it is reached from the current directory if that takes
fewer components, and in full otherwise. -/
def shown (current? : Option String) (path : String) : String :=
  match current? with
  | none => path
  | some current =>
    let relative := relativeTo current path
    if relative.length < (components path).length then "/".intercalate relative else path

end Path
end PlaneReport
