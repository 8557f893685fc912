import Surd.Binary64.Arithmetic

/-!
# Elementary functions

The functions of a mathematical library on doubles. A calculation takes them as a value, since it
needs nothing of them but their names; `Elementary.native` is the library of the machine.
-/

namespace Surd

structure Elementary where
  sqrt : Binary64 → Except Failure Binary64
  cbrt : Binary64 → Binary64
  sin : Binary64 → Binary64
  cos : Binary64 → Binary64
  sinh : Binary64 → Binary64
  cosh : Binary64 → Binary64
  atan2 : Binary64 → Binary64 → Binary64
  pow : Binary64 → Binary64 → Binary64

namespace Binary64

def toFloat (x : Binary64) : Float := Float.ofBits x.toWord

def ofFloat (x : Float) : Binary64 := ofWord x.toBits

end Binary64

namespace Elementary

open Binary64 (toFloat ofFloat)

def native : Elementary where
  sqrt := Binary64.sqrt
  cbrt x := ofFloat x.toFloat.cbrt
  sin x := ofFloat x.toFloat.sin
  cos x := ofFloat x.toFloat.cos
  sinh x := ofFloat x.toFloat.sinh
  cosh x := ofFloat x.toFloat.cosh
  atan2 y x := ofFloat (y.toFloat.atan2 x.toFloat)
  pow x y := ofFloat (x.toFloat.pow y.toFloat)

variable (f : Elementary)

/-- An angle has to be finite. -/
def sine (x : Binary64) : Except Failure Binary64 :=
  match x with
  | .infinite _ => throw .angleNotFinite
  | _ => pure (f.sin x)

def cosine (x : Binary64) : Except Failure Binary64 :=
  match x with
  | .infinite _ => throw .angleNotFinite
  | _ => pure (f.cos x)

/-- Fails when a finite argument has an infinite image. -/
def finiteImage (failure : Failure) (x y : Binary64) : Except Failure Binary64 :=
  match x, y with
  | .finite .., .infinite _ => throw failure
  | _, _ => pure y

def hyperbolicSine (x : Binary64) : Except Failure Binary64 :=
  finiteImage .functionOutOfRange x (f.sinh x)

def hyperbolicCosine (x : Binary64) : Except Failure Binary64 :=
  finiteImage .functionOutOfRange x (f.cosh x)

/-- The power with a fixed exponent. -/
def power (exponent x : Binary64) : Except Failure Binary64 :=
  finiteImage .powerOutOfRange x (f.pow x exponent)

end Elementary

end Surd
