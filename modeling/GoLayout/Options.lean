import GoLayout.Version

/-!
Settings of a formatting run.
-/

namespace GoLayout

structure Options where
  /-- The language version that the code is for. -/
  lang : Option Version
  /-- Whether parameters are merged and error checks moved up. -/
  extra : Bool
  /-- The module that the file belongs to; imports from it are not of the standard library. -/
  modulePath : Option String
  /-- Whether blank range variables are dropped. -/
  simplify : Bool
  /-- A rule that is applied to all expressions first. -/
  rule : Option String
deriving DecidableEq, Repr

namespace Options

/-- Whether the version is known, and this one or later. -/
def langAtLeast (o : Options) (major minor : Nat) : Bool :=
  o.lang.any (·.atLeast major minor)

/-- Whether a loop may range without variables. Without a known version it may. -/
def allowsBareRange (o : Options) : Bool := o.lang.all (·.atLeast 1 4)

end Options

end GoLayout
