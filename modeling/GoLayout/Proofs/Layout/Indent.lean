import GoLayout.Proofs.Layout.Whitespace

/-!
Indentation. The printer keeps one number, which a layout raises and lowers by hand, so what is
raised on the way into a list has to be lowered again on every way out of it. Tokens, gaps and
comments leave the number alone. A sober layout is printed from one level to another, and between
them the number never goes below what it was at level zero.
-/

namespace GoLayout

namespace Printer

variable {σ : Type} [Sink σ] {lines : LineTable}

/-- `Reaches lines l p q`: printing `l` from `p`, the printer is `q` before or behind a part of `l`,
or before or behind all of it. -/
inductive Reaches (lines : LineTable) : Layout → Printer σ → Printer σ → Prop where
  | before {l : Layout} {p : Printer σ} : Reaches lines l p p
  | behind {l : Layout} {p : Printer σ} : Reaches lines l p (print lines l p)
  | left {a b : Layout} {p q : Printer σ} (h : Reaches lines a p q) : Reaches lines (.append a b) p q
  | right {a b : Layout} {p q : Printer σ} (h : Reaches lines b (print lines a p) q) :
      Reaches lines (.append a b) p q
  | outdent {body : Layout} {p q : Printer σ} (h : Reaches lines body p.outdented q) :
      Reaches lines (.outdent body) p q

/-! ### Steps that leave the indentation alone -/

theorem indent_flush (limit : Option Nat) (cs : List Comment) (sep : Sep) (p : Printer σ) :
    (flush lines limit cs sep p).2.indent = p.indent :=
  flush_keeps (P := fun q => q.indent = p.indent) (fun _ _ _ h => h) (fun _ _ _ h => h)
    (fun _ _ _ _ h => h) limit cs sep rfl

theorem indent_toPos (pos : Nat) (sep : Sep) (p : Printer σ) :
    (p.toPos lines pos sep).indent = p.indent :=
  indent_flush (some pos) p.pending sep p

theorem indent_token (span : Span) (text : String) (sep : Sep) (p : Printer σ) :
    (p.token lines span text sep).indent = p.indent :=
  indent_toPos span.start sep p

theorem indent_lastComma (pos : Nat) (p : Printer σ) :
    (print lines (.lastComma pos) p).indent = p.indent := by
  rw [print]
  split <;> rfl

end Printer

namespace Layout

open Printer

/-- Whether a layout has no parts, so that only its two ends are on the way through it. -/
def isStep : Layout → Bool
  | .append _ _ | .outdent _ => false
  | _ => true

variable {σ : Type} [Sink σ] {lines : LineTable}

theorem reaches_of_isStep {l : Layout} {p q : Printer σ} (step : l.isStep)
    (h : Reaches lines l p q) : q = p ∨ q = print lines l p := by
  cases h with
  | before => exact .inl rfl
  | behind => exact .inr rfl
  | left | right | outdent => exact Bool.noConfusion step

/-- Printing the layout from `p` takes the indentation to `level`, and not below zero on the way. -/
structure Takes (lines : LineTable) (l : Layout) (p : Printer σ) (level : Nat) : Prop where
  settled : (print lines l p).indent = level
  sane : ∀ q, Reaches lines l p q → 0 ≤ q.indent

theorem takes_of_isStep {l : Layout} {p : Printer σ} {level : Nat} (step : l.isStep)
    (sane : 0 ≤ p.indent) (settled : (print lines l p).indent = level) :
    l.Takes lines p level := by
  refine ⟨settled, fun q reached => ?_⟩
  rcases reaches_of_isStep step reached with rfl | rfl
  · exact sane
  · omega

theorem Takes.append {a b : Layout} {p : Printer σ} {level level' : Nat}
    (first : a.Takes lines p level) (second : b.Takes lines (print lines a p) level') :
    Takes lines (.append a b) p level' := by
  refine ⟨second.settled, fun q reached => ?_⟩
  cases reached with
  | before => exact first.sane _ .before
  | behind => exact second.sane _ .behind
  | left reached => exact first.sane q reached
  | right reached => exact second.sane q reached

theorem Takes.outdent {body : Layout} {p : Printer σ} {level level' : Nat}
    (entered : p.indent = level) (inner : body.Takes lines p.outdented level') :
    Takes lines (.outdent body) p level := by
  have sane : 0 ≤ p.indent := by omega
  refine ⟨entered, fun q reached => ?_⟩
  cases reached with
  | before | behind => exact sane
  | outdent reached => exact inner.sane q reached

/-- A sober layout takes the indentation from one level to another, whatever it is at level zero. -/
theorem Sober.takes {P : String → Prop} {wide : Bool} {l : Layout} {d e base : Nat}
    (h : l.Sober P wide d e) {p : Printer σ} (entered : p.indent = base + d) :
    l.Takes lines p (base + e) := by
  have sane : 0 ≤ p.indent := by omega
  induction h generalizing base p with
  | nil => exact takes_of_isStep rfl sane entered
  | token => exact takes_of_isStep rfl sane ((indent_token _ _ _ p).trans entered)
  | extra => exact takes_of_isStep rfl sane entered
  | gap => exact takes_of_isStep rfl sane ((indent_toPos _ _ p).trans entered)
  | comments => exact takes_of_isStep rfl sane ((indent_flush _ _ _ p).trans entered)
  | lastComma => exact takes_of_isStep rfl sane ((indent_lastComma _ p).trans entered)
  | append left right ihLeft ihRight =>
    have first := ihLeft entered sane
    exact first.append (ihRight first.settled (by have := first.settled; omega))
  | indent =>
    have raised : p.indent + 1 = base + _ + 1 := congrArg (· + 1) entered
    exact takes_of_isStep rfl sane raised
  | dedent =>
    have lowered : p.indent - 1 = _ := congrArg (· - 1) entered
    exact takes_of_isStep rfl sane (lowered.trans (by push_cast; omega))
  | @outdent body d inner ih =>
    -- The body starts one level to the left, or at the margin; either way that is its level zero.
    have moved : p.outdented.indent = ((base + d - 1 : Nat) : Int) := by
      change max (p.indent - 1) 0 = _
      omega
    exact .outdent entered (ih moved (by omega))

/-- Wherever the layout is printed, the indentation is the same behind it as before it, and it is
not below zero on the way. -/
structure Balanced (lines : LineTable) (l : Layout) : Prop where
  settled : ∀ {σ : Type} [Sink σ] (p : Printer σ), 0 ≤ p.indent →
    (print lines l p).indent = p.indent
  sane : ∀ {σ : Type} [Sink σ] (p q : Printer σ), 0 ≤ p.indent → Reaches lines l p q →
    0 ≤ q.indent

theorem Sober.balanced {P : String → Prop} {wide : Bool} {l : Layout} (h : l.Sober P wide 0 0) :
    l.Balanced lines := by
  have takes {σ : Type} [Sink σ] {p : Printer σ} (sane : 0 ≤ p.indent) :
      l.Takes lines p (p.indent.toNat + 0) := h.takes (by omega)
  constructor
  · intro σ _ p sane
    rw [(takes sane).settled]
    omega
  · exact fun p q sane => (takes sane).sane q

end Layout

end GoLayout
