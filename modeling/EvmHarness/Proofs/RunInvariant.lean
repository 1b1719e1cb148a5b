import EvmHarness.Proofs.MachineRun
set_option autoImplicit false

/-!
# Invariants of one frame at a time

Many facts about a machine speak of its frames one by one: of the running frame in its world, and
of each suspended frame with what it restores and the frames that it waits above.  Such a fact has
to be shown for one instruction and for one outcome that is taken up; that it then holds along a
run is shown here once, for the run of a callee as for that of the whole machine.
-/

namespace EvmHarness

/-- What is said of the frames of a machine, each with the frames suspended below it. -/
structure FrameInvariant where
  /-- of the running frame in its world -/
  running : List Suspended → Active → Prop
  /-- of a frame that has just ended -/
  ended : List Suspended → Active → Prop
  /-- of a suspended frame -/
  waiting : List Suspended → Suspended → Prop

/-- The same is said at every depth, and of a frame that has ended as of one that runs. -/
def FrameInvariant.uniform (A : Active → Prop) (S : Suspended → Prop) : FrameInvariant :=
  ⟨fun _ => A, fun _ => A, fun _ => S⟩

namespace Machine

/-- What is said of frames is true of the running one, or of the one that has ended last, and of
every one suspended above `below`. -/
structure Holds (I : FrameInvariant) (below : List Suspended) (m : Machine) : Prop where
  running : m.result = none → I.running m.suspended m.active
  ended : m.result.isSome → I.ended m.suspended m.active
  above : below <:+ m.suspended
  waiting : ∀ {s rest}, s :: rest <:+ m.suspended → below.length ≤ rest.length → I.waiting rest s

/-- The next instruction keeps such an invariant. -/
structure Carries (I : FrameInvariant) (m : Machine) : Prop where
  proceed : ∀ {b}, I.running m.suspended m.active →
    Action.instruction m.environment m.active = .ok .proceed b → I.running m.suspended b
  enter : ∀ {callee purpose reversion b}, I.running m.suspended m.active →
    Action.instruction m.environment m.active = .ok (.enter callee purpose reversion) b →
      I.running (Machine.waiting purpose reversion b :: m.suspended) ⟨callee, b.world⟩ ∧
        I.waiting m.suspended (Machine.waiting purpose reversion b)
  ends : ∀ {outcome b}, I.running m.suspended m.active → m.Ends outcome b → I.ended m.suspended b
  resume : ∀ {outcome b s rest f}, I.waiting rest s → I.ended (s :: rest) b →
    (s.given b.frame.gas).Runs f → I.running rest ⟨f, s.settled b.frame.gas outcome b.world⟩

/-- The next instruction keeps an invariant that says the same at every depth. -/
structure CarriesEach (A : Active → Prop) (S : Suspended → Prop) (m : Machine) : Prop where
  ok : ∀ {next b}, A m.active → Action.instruction m.environment m.active = .ok next b → A b
  error : ∀ {fault b}, A m.active →
    Action.instruction m.environment m.active = .error fault b → A b
  enter : ∀ {callee purpose reversion b}, A m.active →
    Action.instruction m.environment m.active = .ok (.enter callee purpose reversion) b →
      A ⟨callee, b.world⟩ ∧ S (Machine.waiting purpose reversion b)
  resume : ∀ {outcome b s f}, S s → A b → (s.given b.frame.gas).Runs f →
    A ⟨f, s.settled b.frame.gas outcome b.world⟩

variable {I : FrameInvariant} {A : Active → Prop} {S : Suspended → Prop}
  {below : List Suspended} {m : Machine}

theorem CarriesEach.carries (carries : m.CarriesEach A S) : m.Carries (.uniform A S) where
  proceed ha h := carries.ok ha h
  enter ha h := carries.enter ha h
  ends := by
    intro outcome b ha ends
    cases ends with
    | halt h => exact carries.ok ha h
    | fault h => exact carries.error ha h
  resume hs hb runs := carries.resume hs hb runs

/-- What is said of a frame that has ended as of one that runs is true of the last one. -/
theorem Holds.last (holds : m.Holds I below)
    (same : ∀ callers a, I.ended callers a → I.running callers a) :
    I.running m.suspended m.active := by
  cases hr : m.result with
  | none => exact holds.running hr
  | some outcome =>
      refine same _ _ (holds.ended ?_)
      rw [hr]
      rfl

theorem Holds.active (holds : m.Holds (.uniform A S) below) : A m.active :=
  holds.last fun _ _ => id

theorem Holds.of_mem (holds : m.Holds I []) {s : Suspended} (hs : s ∈ m.suspended) :
    ∃ rest, I.waiting rest s := by
  obtain ⟨above, rest, hsplit⟩ := List.append_of_mem hs
  exact ⟨rest, holds.waiting ⟨above, hsplit.symm⟩ (Nat.zero_le _)⟩

/-- A machine without suspended frames holds what is said of its running frame. -/
theorem holds_alone (running : m.result = none) (alone : m.suspended = [])
    (h : I.running [] m.active) : m.Holds I [] where
  running _ := by rw [alone]; exact h
  ended result := by simp [running] at result
  above := List.nil_suffix
  waiting hs _ := by
    rw [alone] at hs
    exact absurd (List.suffix_nil.1 hs) nofun

/-- What the next instruction keeps, the next step keeps, unless it leaves for the frames below. -/
theorem Holds.of_moves {n : Machine} (holds : m.Holds I below) (alive : m.result = none)
    (carries : m.Carries I) (h : m.Moves n) (above : below.length ≤ n.depth) :
    n.Holds I below := by
  have ha := holds.running alive
  cases h with
  | proceed h =>
      refine ⟨fun _ => carries.proceed ha h, fun result => ?_, holds.above, holds.waiting⟩
      simp [alive] at result
  | enter h =>
      obtain ⟨hcallee, hwaiting⟩ := carries.enter ha h
      refine ⟨fun _ => hcallee, fun result => ?_, holds.above.trans (List.suffix_cons _ _), ?_⟩
      · simp [alive] at result
      · intro s rest hs hrest
        obtain hs | hs := List.suffix_cons_iff.1 hs
        · obtain ⟨rfl, rfl⟩ := List.cons.inj hs
          exact hwaiting
        · exact holds.waiting hs hrest
  | finish ends alone =>
      exact ⟨nofun, fun _ => carries.ends ha ends, holds.above, holds.waiting⟩
  | resume ends callers runs =>
      rename_i outcome b s rest f
      have hb := carries.ends ha ends
      have hrest : rest <:+ m.suspended := callers ▸ List.suffix_cons s rest
      have hwaiting : I.waiting rest s := holds.waiting (callers ▸ List.suffix_rfl) above
      rw [callers] at hb
      refine ⟨fun _ => carries.resume hwaiting hb runs, fun result => ?_, ?_, ?_⟩
      · simp [alive] at result
      · exact List.suffix_of_suffix_length_le holds.above hrest above
      · exact fun hs => holds.waiting (hs.trans hrest)

theorem Holds.stepped (holds : m.Holds I below) (carries : m.result = none → m.Carries I)
    (room : m.Room) (above : below.length ≤ m.step.depth) : m.step.Holds I below := by
  cases hr : m.result with
  | some outcome =>
      rw [step_eq_self hr]
      exact holds
  | none => exact holds.of_moves hr (carries hr) (moves_step hr room) above

/-- An invariant that every instruction of a run keeps holds as long as the run stays above the
frames below. -/
theorem Holds.iterate (holds : m.Holds I below) (room : m.Room) (n : Nat)
    (carries : ∀ k < n, (step^[k] m).result = none → (step^[k] m).Carries I)
    (above : ∀ k ≤ n, below.length ≤ (step^[k] m).depth) : (step^[n] m).Holds I below := by
  have both : (step^[n] m).Holds I below ∧ (step^[n] m).Room := by
    induction n with
    | zero => exact ⟨holds, room⟩
    | succ n ih =>
        obtain ⟨hn, hroom⟩ := ih (fun k hk => carries k (Nat.lt_succ_of_lt hk))
          fun k hk => above k (Nat.le_succ_of_le hk)
        have hdepth := above (n + 1) (Nat.le_refl _)
        rw [Function.iterate_succ_apply'] at hdepth ⊢
        exact ⟨hn.stepped (carries n (Nat.lt_succ_self n)) hroom hdepth, hroom.step⟩
  exact both.1

/-- An invariant that holds at the start of a transaction and that every instruction of its run
keeps holds along the run. -/
theorem holds_run {tx : Transaction} {gasLimit : UInt64} {before : Machine}
    (h : tx.prepare gasLimit before = .ok m) (start : I.running [] m.active) (n : Nat)
    (carries : ∀ k < n, (step^[k] m).result = none → (step^[k] m).Carries I) :
    (step^[n] m).Holds I [] := by
  obtain ⟨running, alone⟩ := Transaction.starts_alone h
  have holds : m.Holds I [] := holds_alone running alone start
  exact holds.iterate (Reachable.prepared h).room n carries fun _ _ => Nat.zero_le _

/-- An invariant that holds at the start of a transaction holds in every reachable machine. -/
theorem Reachable.holds (h : m.Reachable) (carries : ∀ m, Carries I m)
    (start : ∀ {tx : Transaction} {gasLimit : UInt64} {before m : Machine},
      tx.prepare gasLimit before = .ok m → I.running [] m.active) : m.Holds I [] := by
  induction h with
  | prepared h =>
      obtain ⟨running, alone⟩ := Transaction.starts_alone h
      exact holds_alone running alone (start h)
  | stepped h ih => exact ih.stepped (fun _ => carries _) h.room (Nat.zero_le _)

/-! ## The run of a callee -/

/-- What is said of a callee that has just been entered, with nothing suspended above its caller. -/
theorem holds_entered {callee : Frame} {purpose : Purpose} {reversion : Accounts} {b : Active}
    (running : m.result = none)
    (entered : Action.instruction m.environment m.active = .ok (.enter callee purpose reversion) b)
    (h : I.running (Machine.waiting purpose reversion b :: m.suspended) ⟨callee, b.world⟩) :
    m.step.Holds I (Machine.waiting purpose reversion b :: m.suspended) := by
  rw [step_of_enter running entered]
  refine ⟨fun _ => h, fun result => ?_, List.suffix_rfl, fun hs hrest => ?_⟩
  · simp [running] at result
  · exact absurd hs.length_le (Nat.not_le_of_lt (Nat.lt_succ_of_le hrest))

/-- What holds of a callee that has just been entered holds as long as the run stays deeper than its
caller. -/
theorem Holds.nested {s : Machine} {c : Suspended} {n : Nat}
    (holds : s.step.Holds I (c :: s.suspended)) (room : s.Room) (ran : 0 < n)
    (deeper : ∀ k, 0 < k → k ≤ n → s.depth < (Machine.step^[k] s).depth)
    (carries : ∀ m, Carries I m) : (Machine.step^[n] s).Holds I (c :: s.suspended) := by
  obtain ⟨n, rfl⟩ := Nat.exists_eq_add_of_lt ran
  rw [Nat.zero_add, Function.iterate_succ_apply]
  refine holds.iterate room.step n (fun _ _ _ => carries _) fun k hk => ?_
  have hdepth := deeper (k + 1) (Nat.succ_pos k) (by omega)
  rw [Function.iterate_succ_apply] at hdepth
  exact hdepth

/-- An invariant that holds when a callee is entered holds as long as the run stays deeper than its
caller. -/
theorem holds_nested {s : Machine} {n : Nat} (reachable : s.Reachable) (running : s.result = none)
    (ran : 0 < n) (deeper : ∀ k, 0 < k → k ≤ n → s.depth < (Machine.step^[k] s).depth)
    (entered : ∀ {callee purpose reversion b},
      s.active.Enters s.depth callee purpose reversion b →
        I.running (waiting purpose reversion b :: s.suspended) ⟨callee, b.world⟩)
    (carries : ∀ m, Carries I m) :
    ∃ callee purpose reversion b, s.active.Enters s.depth callee purpose reversion b ∧
      (Machine.step^[n] s).Holds I (waiting purpose reversion b :: s.suspended) := by
  have first : s.depth < s.step.depth := deeper 1 Nat.one_pos ran
  obtain ⟨callee, purpose, reversion, b, h, _⟩ :=
    instruction_of_deeper (moves_step running reachable.room) first
  have enters := Action.instruction_enters h
  have holds : s.step.Holds I (waiting purpose reversion b :: s.suspended) :=
    holds_entered running h (entered enters)
  exact ⟨callee, purpose, reversion, b, enters, holds.nested reachable.room ran deeper carries⟩

/-- A step back to the frames below has ended a frame into the innermost of them. -/
theorem Holds.back {c : Suspended} (holds : m.Holds I (c :: below)) (carries : m.Carries I)
    (room : m.Room) (deeper : below.length < m.depth) (back : m.step.depth ≤ below.length) :
    ∃ outcome b f, m.Ends outcome b ∧ I.ended (c :: below) b ∧ m.suspended = c :: below ∧
      m.result = none ∧ m.step = { m with
        active := ⟨f, c.settled b.frame.gas outcome b.world⟩, suspended := below } := by
  have running : m.result = none :=
    running_of_depth_ne (Nat.ne_of_lt (Nat.lt_of_le_of_lt back deeper))
  obtain ⟨outcome, b, s, f, ends, callers, hstep⟩ :=
    moves_back (moves_step running room) (Nat.lt_of_le_of_lt back deeper)
  have hdepth : m.depth = m.step.depth + 1 := congrArg List.length callers
  have level : m.depth = (c :: below).length := by
    rw [hdepth, List.length_cons]
    omega
  have suspended : m.suspended = c :: below := (holds.above.eq_of_length level.symm).symm
  obtain ⟨rfl, hrest⟩ := List.cons.inj (callers.symm.trans suspended)
  have hb := carries.ends (holds.running running) ends
  rw [suspended] at hb
  rw [hrest] at hstep
  exact ⟨outcome, b, f, ends, hb, suspended, running, hstep⟩

end Machine

end EvmHarness
