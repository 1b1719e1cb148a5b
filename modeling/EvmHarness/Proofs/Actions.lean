import EvmHarness.Active
import Mathlib.Order.Defs.Unbundled
set_option autoImplicit false

/-!
# What an action keeps, and what a successful one has done

An action is a chain of smaller ones, and a fault keeps the changes made so far.  A fact about the
states before and after it is therefore a relation that every link keeps and that chains: `Keeps`
says so of a whole action, whether it gives a value or a fault.  Where a later link needs what an
earlier one has found out, a successful chain is taken apart instead.
-/

namespace EvmHarness

variable {ε σ α β : Type}

/-- The state that an action leaves, whether it gives a value or a fault. -/
def stateAfter : EStateM.Result ε σ α → σ
  | .ok _ s => s
  | .error _ s => s

/-- The fault that an action gives, if it gives one. -/
def faultOf? : EStateM.Result ε σ α → Option ε
  | .ok _ _ => none
  | .error e _ => some e

theorem eq_error_of_faultOf? {r : EStateM.Result ε σ α} {e : ε} (h : faultOf? r = some e) :
    r = .error e (stateAfter r) := by
  cases r with
  | ok a s => exact absurd h nofun
  | error e' s =>
      obtain rfl := Option.some.inj h
      rfl

/-- A chain gives a value where both of its links do. -/
theorem bind_eq_ok {x : EStateM ε σ α} {f : α → EStateM ε σ β} {s u : σ} {b : β} :
    (x >>= f) s = .ok b u ↔ ∃ a t, x s = .ok a t ∧ f a t = .ok b u := by
  show EStateM.bind x f s = _ ↔ _
  unfold EStateM.bind
  cases x s with
  | ok a t =>
      constructor
      · intro h
        exact ⟨a, t, rfl, h⟩
      · rintro ⟨_, _, hx, hf⟩
        cases hx
        exact hf
  | error e t => simp

/-- A chain fails where its first link does, or its second one after that. -/
theorem bind_eq_error {x : EStateM ε σ α} {f : α → EStateM ε σ β} {s u : σ} {e : ε} :
    (x >>= f) s = .error e u ↔
      x s = .error e u ∨ ∃ a t, x s = .ok a t ∧ f a t = .error e u := by
  show EStateM.bind x f s = _ ↔ _
  unfold EStateM.bind
  cases x s with
  | ok a t =>
      constructor
      · intro h
        exact .inr ⟨a, t, rfl, h⟩
      · rintro (h | ⟨_, _, hx, hf⟩)
        · exact absurd h nofun
        · cases hx
          exact hf
  | error e' t => simp

/-- The end of a chain is that of its first link, where this fails, or of its second. -/
theorem stateAfter_bind (x : EStateM ε σ α) (f : α → EStateM ε σ β) (s : σ) :
    stateAfter ((x >>= f) s) =
      match x s with
      | .ok a t => stateAfter (f a t)
      | .error _ t => t := by
  show stateAfter (EStateM.bind x f s) = _
  unfold EStateM.bind
  cases x s <;> rfl

theorem throw_ne_ok {e : ε} {s t : σ} {a : α} :
    (throw e : EStateM ε σ α) s ≠ .ok a t := nofun

theorem get_bind (f : σ → EStateM ε σ β) (s : σ) : ((get : EStateM ε σ σ) >>= f) s = f s s := rfl

theorem set_bind (t : σ) (f : PUnit → EStateM ε σ β) (s : σ) :
    ((set t : EStateM ε σ PUnit) >>= f) s = f ⟨⟩ t := rfl

/-! ## Relations that an action keeps -/

/-- The states before and after the action stand in the relation, whatever it gives. -/
def Keeps (R : σ → σ → Prop) (x : EStateM ε σ α) : Prop := ∀ s, R s (stateAfter (x s))

namespace Keeps

variable {R : σ → σ → Prop}

theorem of_eq_ok {x : EStateM ε σ α} (hx : Keeps R x) {s t : σ} {a : α} (h : x s = .ok a t) :
    R s t := by
  have := hx s
  rwa [h] at this

theorem of_eq_error {x : EStateM ε σ α} (hx : Keeps R x) {s t : σ} {e : ε}
    (h : x s = .error e t) : R s t := by
  have := hx s
  rwa [h] at this

theorem mono {S : σ → σ → Prop} {x : EStateM ε σ α} (hx : Keeps R x)
    (h : ∀ s t, R s t → S s t) : Keeps S x := fun s => h s _ (hx s)

theorem pure [Std.Refl R] (a : α) : Keeps R (Pure.pure a : EStateM ε σ α) := fun s =>
  Std.Refl.refl s

theorem throw [Std.Refl R] (e : ε) : Keeps R (throw e : EStateM ε σ α) := fun s =>
  Std.Refl.refl s

theorem get [Std.Refl R] : Keeps R (get : EStateM ε σ σ) := fun s => Std.Refl.refl s

/-- A relation that chains holds across a chain of actions from some state if it holds across the
first one there and across the second one from what the first one gives. -/
theorem bind_at [IsTrans σ R] {x : EStateM ε σ α} {f : α → EStateM ε σ β} {s : σ}
    (hx : R s (stateAfter (x s))) (hf : ∀ {a t}, x s = .ok a t → R t (stateAfter (f a t))) :
    R s (stateAfter ((x >>= f) s)) := by
  rw [stateAfter_bind]
  cases h : x s with
  | ok a t =>
      rw [h] at hx
      exact IsTrans.trans _ _ _ hx (hf h)
  | error e t =>
      rw [h] at hx
      exact hx

theorem bind_of_eq_ok [IsTrans σ R] {x : EStateM ε σ α} {f : α → EStateM ε σ β} (hx : Keeps R x)
    (hf : ∀ {s a t}, x s = .ok a t → R t (stateAfter (f a t))) : Keeps R (x >>= f) := fun s =>
  bind_at (hx s) hf

/-- A relation that chains is kept by a chain of actions that keep it. -/
theorem bind [IsTrans σ R] {x : EStateM ε σ α} {f : α → EStateM ε σ β} (hx : Keeps R x)
    (hf : ∀ a, Keeps R (f a)) : Keeps R (x >>= f) :=
  hx.bind_of_eq_ok fun _ => hf _ _

theorem ite {c : Prop} [Decidable c] {x y : EStateM ε σ α} (hx : Keeps R x) (hy : Keeps R y) :
    Keeps R (if c then x else y) := by
  split
  · exact hx
  · exact hy

end Keeps

/-- If the action gives a value, this and the state then have the property. -/
def After (x : EStateM ε σ α) (P : α → σ → Prop) (s : σ) : Prop :=
  ∀ ⦃a : α⦄ ⦃t : σ⦄, x s = .ok a t → P a t

namespace After

variable {P : α → σ → Prop} {s : σ}

theorem mono {Q : α → σ → Prop} {x : EStateM ε σ α} (h : After x P s)
    (le : ∀ a t, P a t → Q a t) : After x Q s := fun _ _ hx => le _ _ (h hx)

theorem pure {a : α} (h : P a s) : After (Pure.pure a : EStateM ε σ α) P s := by
  intro b t hx
  obtain ⟨rfl, rfl⟩ := EStateM.Result.ok.inj hx
  exact h

/-- What holds after the second link of a chain holds after the chain. -/
theorem bind {x : EStateM ε σ β} {f : β → EStateM ε σ α}
    (hx : After x (fun b t => After (f b) P t) s) : After (x >>= f) P s := by
  intro a u h
  obtain ⟨b, t, hb, h⟩ := bind_eq_ok.1 h
  exact hx hb h

/-- What holds after the second link of a chain, whatever the first one does, holds after the
chain. -/
theorem bind_any {x : EStateM ε σ β} {f : β → EStateM ε σ α} (hf : ∀ b t, After (f b) P t) :
    After (x >>= f) P s := bind fun b t _ => hf b t

end After

namespace Action

/-- The states before and after the action stand in the relation, in every environment. -/
def Keeps (R : Active → Active → Prop) (act : Action α) : Prop :=
  ∀ env, EvmHarness.Keeps R (act env)

theorem bind_apply (act : Action α) (f : α → Action β) (env : Environment) :
    (act >>= f) env = act env >>= fun a => f a env := rfl

theorem bind_of_eq_ok {act : Action α} {env : Environment} {a b : Active} {u : α}
    (h : act env a = .ok u b) (f : α → Action β) : (act >>= f) env a = f u env b := by
  show EStateM.bind (act env) _ a = _
  rw [EStateM.bind, h]

theorem bind_of_eq_error {act : Action α} {env : Environment} {a b : Active} {fault : Fault}
    (h : act env a = .error fault b) (f : α → Action β) :
    (act >>= f) env a = .error fault b := by
  show EStateM.bind (act env) _ a = _
  rw [EStateM.bind, h]

/-- A chain gives a value where both of its links do. -/
theorem bind_eq_ok {act : Action α} {f : α → Action β} {env : Environment} {a c : Active} {v : β} :
    (act >>= f) env a = .ok v c ↔ ∃ u b, act env a = .ok u b ∧ f u env b = .ok v c :=
  EvmHarness.bind_eq_ok

/-- A chain fails where its first link does, or its second one after that. -/
theorem bind_eq_error {act : Action α} {f : α → Action β} {env : Environment} {a c : Active}
    {fault : Fault} :
    (act >>= f) env a = .error fault c ↔
      act env a = .error fault c ∨ ∃ v b, act env a = .ok v b ∧ f v env b = .error fault c :=
  EvmHarness.bind_eq_error

theorem pure_eq_ok {env : Environment} {a b : Active} {u v : α} :
    (pure u : Action α) env a = .ok v b ↔ u = v ∧ a = b := by
  show EStateM.Result.ok u a = _ ↔ _
  simp

theorem throw_ne_ok {fault : Fault} {env : Environment} {a b : Active} {v : α} :
    (throw fault : Action α) env a ≠ .ok v b := nofun

theorem get_bind (f : Active → Action β) (env : Environment) (a : Active) :
    ((get : Action Active) >>= f) env a = f a env a := rfl

theorem read_bind (f : Environment → Action β) (env : Environment) (a : Active) :
    ((read : Action Environment) >>= f) env a = f env env a := rfl

namespace Keeps

variable {R : Active → Active → Prop}

theorem mono {S : Active → Active → Prop} {act : Action α} (hact : Keeps R act)
    (h : ∀ a b, R a b → S a b) : Keeps S act := fun env => (hact env).mono h

theorem of_eq_ok {act : Action α} (h : Keeps R act) {env : Environment} {a b : Active} {v : α}
    (hv : act env a = .ok v b) : R a b := (h env).of_eq_ok hv

theorem pure [Std.Refl R] (v : α) : Keeps R (Pure.pure v : Action α) := fun _ => .pure v

theorem throw [Std.Refl R] (fault : Fault) : Keeps R (throw fault : Action α) := fun _ =>
  .throw fault

theorem get [Std.Refl R] : Keeps R (get : Action Active) := fun _ => .get

/-- What is done with the state found may count on its being that state. -/
theorem get_bind {f : Active → Action β} (h : ∀ env a, R a (stateAfter (f a env a))) :
    Keeps R (MonadState.get >>= f : Action β) := h

theorem bind [IsTrans Active R] {act : Action α} {f : α → Action β} (hact : Keeps R act)
    (hf : ∀ v, Keeps R (f v)) : Keeps R (act >>= f) := fun env =>
  (hact env).bind fun v => hf v env

theorem ite {c : Prop} [Decidable c] {x y : Action α} (hx : Keeps R x) (hy : Keeps R y) :
    Keeps R (if c then x else y) := by
  split
  · exact hx
  · exact hy

end Keeps

/-- The action gives nothing but values with the property. -/
def Gives (P : α → Prop) (act : Action α) : Prop :=
  ∀ ⦃env : Environment⦄ ⦃a b : Active⦄ ⦃v : α⦄, act env a = .ok v b → P v

namespace Gives

variable {P : α → Prop} {Q : β → Prop}

theorem pure {v : α} (h : P v) : Gives P (Pure.pure v : Action α) := by
  intro env a b w hw
  obtain ⟨rfl, _⟩ := pure_eq_ok.1 hw
  exact h

theorem throw (fault : Fault) : Gives P (throw fault : Action α) := fun _ _ _ _ h =>
  absurd h throw_ne_ok

/-- What a chain gives, its last link gives. -/
theorem bind {act : Action α} {f : α → Action β} (hf : ∀ u, Gives Q (f u)) :
    Gives Q (act >>= f) := by
  intro env a c v h
  obtain ⟨u, b, _, h⟩ := bind_eq_ok.1 h
  exact hf u h

theorem ite {c : Prop} [Decidable c] {x y : Action α} (hx : Gives P x) (hy : Gives P y) :
    Gives P (if c then x else y) := by
  split
  · exact hx
  · exact hy

end Gives

theorem onFrame_apply (act : FrameM α) (env : Environment) (f : Frame) (w : World) :
    onFrame act env ⟨f, w⟩ =
      match act f with
      | .ok v g => .ok v ⟨g, w⟩
      | .error fault g => .error fault ⟨g, w⟩ := rfl

/-- What holds after the second link of a chain, whatever the first one does, holds after the
chain. -/
theorem after_bind_any {act : Action α} {f : α → Action β} {env : Environment} {a : Active}
    {P : β → Active → Prop} (hf : ∀ u b, After (f u env) P b) : After ((act >>= f) env) P a :=
  After.bind_any hf

/-- An action on the frame keeps what its end state says of the frame with the world left. -/
theorem keeps_onFrame {R : Active → Active → Prop} {S : Frame → Frame → Prop} {act : FrameM α}
    (hact : EvmHarness.Keeps S act)
    (h : ∀ f g w, S f g → R ⟨f, w⟩ ⟨g, w⟩) : Keeps R (onFrame act) := by
  rintro env ⟨f, w⟩
  rw [onFrame_apply]
  cases hf : act f with
  | ok v g => exact h f g w (hact.of_eq_ok hf)
  | error fault g => exact h f g w (hact.of_eq_error hf)

theorem onFrame_of_eq_ok {act : FrameM α} {a : Active} {g : Frame} {v : α}
    (h : act a.frame = .ok v g) (env : Environment) :
    onFrame act env a = .ok v { a with frame := g } := by
  rcases a with ⟨f, w⟩
  rw [onFrame_apply, h]

theorem onFrame_of_eq_error {act : FrameM α} {a : Active} {g : Frame} {fault : Fault}
    (h : act a.frame = .error fault g) (env : Environment) :
    onFrame act env a = .error fault { a with frame := g } := by
  rcases a with ⟨f, w⟩
  rw [onFrame_apply, h]

/-- An action on the frame gives what it gives there, and leaves the world. -/
theorem onFrame_eq_ok {act : FrameM α} {env : Environment} {a b : Active} {v : α} :
    onFrame act env a = .ok v b ↔ act a.frame = .ok v b.frame ∧ b.world = a.world := by
  rcases a with ⟨f, w⟩
  rcases b with ⟨g, w'⟩
  rw [onFrame_apply]
  cases act f with
  | ok u h => simp [eq_comm, and_assoc]
  | error fault h => simp

/-- An action on the frame fails as it does there, and leaves the world. -/
theorem onFrame_eq_error {act : FrameM α} {env : Environment} {a b : Active} {fault : Fault} :
    onFrame act env a = .error fault b ↔
      act a.frame = .error fault b.frame ∧ b.world = a.world := by
  rcases a with ⟨f, w⟩
  rcases b with ⟨g, w'⟩
  rw [onFrame_apply]
  cases act f with
  | ok u h => simp
  | error fault' h => simp [eq_comm, and_assoc]

/-- What holds after an action on the frame, holds of the frame after it. -/
theorem after_onFrame {act : FrameM α} {env : Environment} {a : Active} {P : α → Frame → Prop}
    (h : After act P a.frame) : After (onFrame act env) (fun v b => P v b.frame) a :=
  fun _ _ hv => h (onFrame_eq_ok.1 hv).1

theorem demandChangeable_apply (env : Environment) (a : Active) :
    demandChangeable env a =
      if a.frame.isStatic then .error .stateChangeWhileStatic a else .ok () a := by
  show (if a.frame.isStatic then throw Fault.stateChangeWhileStatic else Pure.pure () :
    Action Unit) env a = _
  split <;> rfl

theorem demandChangeable_eq_ok {env : Environment} {a b : Active} {u : Unit} :
    demandChangeable env a = .ok u b ↔ a.frame.isStatic = false ∧ b = a := by
  rw [demandChangeable_apply]
  cases a.frame.isStatic <;> simp [eq_comm]

end Action

end EvmHarness
