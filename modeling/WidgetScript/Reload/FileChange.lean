/-! Changes of the script file. The notices are for its whole directory, so those for
other files are left out. -/
namespace WidgetScript

inductive Notice where
  | create | modify | rename | remove | other
deriving DecidableEq, Repr

inductive ChangeKind where
  | created | modified | removed
deriving DecidableEq, Repr

/-- A name that changes means new contents under the name. -/
def Notice.change? : Notice → Option ChangeKind
  | .create => some .created
  | .modify => some .modified
  | .rename => some .modified
  | .remove => some .removed
  | .other => none

structure FileChange where
  path : String
  kind : ChangeKind
deriving DecidableEq, Repr

/-- The last part of a path. Empty parts and dots do not count, and there is none where the
path leads upwards. -/
def fileName? (path : String) : Option String :=
  match ((path.splitOn "/").filter fun part => part ≠ "" ∧ part ≠ ".").getLast? with
  | some name => if name = ".." then none else some name
  | none => none

def FileChange.ofNotice (notice : Notice) (paths : List String) (target : String) :
    List FileChange :=
  match notice.change? with
  | none => []
  | some kind =>
      let named := paths.filter fun path =>
        (fileName? path).isSome ∧ fileName? path = fileName? target
      named.map (⟨·, kind⟩)

end WidgetScript
