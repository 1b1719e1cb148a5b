import EvmHarness.Proofs.CreateRun
set_option autoImplicit false

/-!
# What an instruction does

An instruction starts its operation or faults before that.  Whatever the operation, the frame is a
later state of itself afterwards and the world one that changes of the frame reach; only a
self-destruction does more.  An instruction after which its frame goes on has spent gas, and one
that enters a callee has left room for the answer and kept what a failure restores.
-/

namespace EvmHarness

/-- Whether an operation runs other code in a frame of its own. -/
def Operation.nests : Operation → Bool
  | .call _ | .create _ => true
  | _ => false

namespace Active

/-- The operation at the program counter, if the byte there has one. -/
def operation? (a : Active) : Option Operation :=
  Operation.decode? (Code.opcodeAt a.frame.code a.frame.pc)

/-- The state in which the byte of an operation is passed. -/
def fetched (a : Active) : Active :=
  { a with frame := { a.frame with pc := a.frame.pc + 1 } }

/-- The state in which an operation starts: past its byte and with its fixed price paid. -/
def started (op : Operation) (a : Active) : Active :=
  { a with frame := { a.frame with pc := a.frame.pc + 1, gas := a.frame.gas - op.info.price } }

/-- What the checks before an operation find. -/
structure Starts (op : Operation) (a : Active) : Prop where
  operation : a.operation? = some op
  inputs : op.info.inputs ≤ a.frame.stack.size
  room : a.frame.stack.size - op.info.inputs + op.info.outputs ≤ Stack.limit
  price : op.info.price ≤ a.frame.gas

instance (op : Operation) (a : Active) : Decidable (Starts op a) :=
  decidable_of_iff
    (a.operation? = some op ∧ op.info.inputs ≤ a.frame.stack.size ∧
      a.frame.stack.size - op.info.inputs + op.info.outputs ≤ Stack.limit ∧
      op.info.price ≤ a.frame.gas)
    ⟨fun ⟨operation, inputs, room, price⟩ => ⟨operation, inputs, room, price⟩,
      fun h => ⟨h.operation, h.inputs, h.room, h.price⟩⟩

/-- Why no operation starts: the byte has none, or the stack or the gas does not allow for it. -/
inductive Unstarted (a : Active) : Fault → Prop where
  | undefined (h : a.operation? = none) :
      Unstarted a (.undefined (Code.opcodeAt a.frame.code a.frame.pc))
  | underrun {op : Operation} (hop : a.operation? = some op)
      (h : a.frame.stack.size < op.info.inputs) : Unstarted a .stackUnderrun
  | overflow {op : Operation} (hop : a.operation? = some op)
      (h : Stack.limit < a.frame.stack.size - op.info.inputs + op.info.outputs) :
      Unstarted a .stackLimitExceeded
  | unpaid {op : Operation} (hop : a.operation? = some op) (h : a.frame.gas < op.info.price) :
      Unstarted a (.outOfGas a.frame.gas op.info.price)

/-- The state in which the bytes that belong to an operation are passed, too. -/
def passed (op : Operation) (a : Active) : Active :=
  { a.started op with frame := { (a.started op).frame with
    pc := (a.started op).frame.pc + op.immediateSize } }

theorem started_later (op : Operation) (a : Active) : a.Later (a.started op) :=
  ⟨.movePaying _ _ (Nat.sub_le _ _), .refl⟩

theorem passed_later (op : Operation) (a : Active) : a.Later (a.passed op) :=
  ⟨.movePaying _ _ (Nat.sub_le _ _), .refl⟩

theorem Starts.gas {op : Operation} {a : Active} (h : a.Starts op) :
    (a.started op).frame.gas + op.info.price = a.frame.gas := Nat.sub_add_cancel h.price

end Active

namespace Action

open Active (Later Runs RunsUnlessStatic Pays)

variable {env : Environment} {a b c : Active} {next : Next}

/-! ## Self-destruction -/

theorem keeps_openSelfDestruct : Keeps Runs openSelfDestruct := by
  refine keeps_demandChangeable_bind (Keeps.unlessStatic ?_)
  refine keeps_pop.bind fun _ => (pays_touch _).runs.bind fun _ => ?_
  exact (pays_charge _).runs.bind fun _ => .pure _

/-- What holds once a self-destruction is opened, between the state before it and the state
then. -/
structure OpensSelfDestruct (beneficiary : Address) (a b : Active) : Prop extends a.Later b where
  changeable : a.frame.isStatic = false
  accounts : b.world.accounts = a.world.accounts
  logs : b.world.logs = a.world.logs
  beneficiary : a.frame.stack.words.head?.map Address.ofWord = some beneficiary

theorem openSelfDestruct_eq_ok {beneficiary : Address}
    (h : openSelfDestruct env a = .ok beneficiary b) : OpensSelfDestruct beneficiary a b := by
  unfold openSelfDestruct at h
  obtain ⟨_, a₀, h₀, h⟩ := bind_eq_ok.1 h
  obtain ⟨word, a₁, h₁, h⟩ := bind_eq_ok.1 h
  obtain ⟨known, a₂, h₂, h⟩ := bind_eq_ok.1 h
  obtain ⟨_, a₃, h₃, h⟩ := bind_eq_ok.1 h
  obtain ⟨changeable, ha₀⟩ := demandChangeable_eq_ok.1 h₀
  rw [ha₀] at h₁
  obtain ⟨hf, hw⟩ := onFrame_eq_ok.1 h₁
  obtain ⟨rest, hwords, hpop⟩ := FrameM.pop_eq_ok hf
  obtain ⟨rfl, rfl⟩ := pure_eq_ok.1 h
  have popped : a.Runs a₁ := keeps_pop.of_eq_ok h₁
  have pays : a₁.Pays a₃ := ((pays_touch _).of_eq_ok h₂).trans ((pays_charge _).of_eq_ok h₃)
  refine ⟨(popped.trans pays.toRuns).later, changeable, ?_, ?_, ?_⟩
  · rw [pays.accounts, hw]
  · rw [pays.logs, hw]
  · rw [hwords]
    rfl

/-- The second state is the first one with the running account removed for a beneficiary, after
some gas has been spent. -/
def Destroys (beneficiary : Address) (a c : Active) : Prop :=
  ∃ b, OpensSelfDestruct beneficiary a b ∧
    c = { b with world := b.world.mapAccounts (·.destroy a.frame.account beneficiary) }

theorem selfDestruct_eq_ok (h : selfDestruct env a = .ok next c) :
    next = .halt ByteArray.empty ∧ ∃ beneficiary, Destroys beneficiary a c := by
  obtain ⟨beneficiary, b, ho, h⟩ := bind_eq_ok.1 h
  rw [get_bind] at h
  obtain ⟨_, b', hm, h⟩ := bind_eq_ok.1 h
  obtain ⟨rfl, rfl⟩ := pure_eq_ok.1 h
  have opens := openSelfDestruct_eq_ok ho
  obtain ⟨_, rfl⟩ := EStateM.Result.ok.inj hm
  exact ⟨rfl, beneficiary, b, opens, by rw [opens.frame.account]⟩

theorem selfDestruct_eq_error {fault : Fault} (h : selfDestruct env a = .error fault c) :
    a.Runs c := by
  unfold selfDestruct at h
  cases ho : openSelfDestruct env a with
  | ok beneficiary b =>
      rw [bind_of_eq_ok ho] at h
      exact absurd h nofun
  | error fault' b =>
      rw [bind_of_eq_error ho] at h
      obtain ⟨rfl, rfl⟩ := EStateM.Result.error.inj h
      exact (keeps_openSelfDestruct env).of_eq_error ho

/-! ## Performing an operation -/

/-- An operation on the frame runs it on from behind the bytes of the operation, and leaves the
world. -/
theorem frame_leads (op : FrameOp) (env : Environment) (f : Frame) (w : World) :
    Active.Leads ⟨{ f with pc := f.pc + (Operation.frame op).immediateSize }, w⟩
      (perform (.frame op) env ⟨f, w⟩) := by
  have ran : stateAfter (perform (.frame op) env ⟨f, w⟩) =
      ⟨stateAfter (FrameM.perform env op f), w⟩ := by
    show stateAfter ((onFrame (FrameM.perform env op) env >>= fun _ => Pure.pure Next.proceed)
      ⟨f, w⟩) = _
    rw [stateAfter_bind, onFrame_apply]
    cases FrameM.perform env op f <;> rfl
  refine Runs.leads ?_
  rw [ran]
  exact ⟨FrameM.runs_perform env op f, .refl⟩

/-- Every operation but self-destruction runs its frame on from behind the bytes that belong to
it. -/
theorem perform_leads {op : Operation} (h : op ≠ .selfDestruct) (env : Environment) (a : Active) :
    (a.passed op).Leads (perform op env (a.started op)) := by
  cases op with
  | stop => exact Runs.leads (.refl _)
  | frame op => exact frame_leads op env _ _
  | selfBalance => exact Runs.leads (keeps_readSelfBalance env _)
  | account r => exact Runs.leads (keeps_readAccount r env _)
  | copyAccountCode => exact Runs.leads (keeps_copyAccountCode env _)
  | loadSlot => exact Runs.leads (keeps_loadSlot env _)
  | storeSlot => exact Runs.leads (keeps_storeSlot env _)
  | loadTransient => exact Runs.leads (keeps_loadTransient env _)
  | storeTransient => exact Runs.leads (keeps_storeTransient env _)
  | log topics => exact Runs.leads (keeps_writeLog topics env _)
  | create salted => exact create_leads salted env _
  | call scheme => exact Runs.leads (keeps_call scheme env _)
  | «return» =>
      have reads : Keeps Runs (perform .return) :=
        (keeps_runs_onFrame FrameM.keeps_popOutput).bind fun _ => .pure _
      exact Runs.leads (reads env _)
  | revert =>
      have reads : Keeps Runs (perform .revert) :=
        (keeps_runs_onFrame FrameM.keeps_popOutput).bind fun _ => .throw _
      exact Runs.leads (reads env _)
  | invalid => exact Runs.leads (.refl _)
  | selfDestruct => exact absurd rfl h

/-- How an operation that gives a value goes on: it ends its frame if it is a terminating one, and
enters a callee only if it is a call or a creation. -/
def LeadsTo (op : Operation) (next : Next) : Prop :=
  match next with
  | .proceed => op.info.terminating = false
  | .enter _ _ _ => op.nests = true
  | .halt _ => op.info.terminating = true

theorem gives_perform (op : Operation) : Gives (LeadsTo op) (perform op) := by
  cases op with
  | stop => exact .pure rfl
  | frame op =>
      refine .bind fun _ => .bind fun _ => .pure ?_
      show op.info.terminating = false
      cases op <;> rfl
  | selfBalance => exact .bind fun _ => .bind fun _ => .pure rfl
  | account r => exact .bind fun _ => .bind fun _ => .bind fun _ => .pure rfl
  | copyAccountCode =>
      refine .bind fun _ => .bind fun _ => .bind fun _ => .bind fun _ => ?_
      exact .bind fun _ => .bind fun _ => .pure rfl
  | loadSlot =>
      exact .bind fun _ => .bind fun _ => .bind fun _ => .bind fun _ => .bind fun _ => .pure rfl
  | storeSlot =>
      have written : Gives (LeadsTo .storeSlot) (do
          let key ← pop
          let value ← pop
          charge (← onStorage (·.writeCost key value))
          onStorage fun storage => ((), storage.store key value)
          return .proceed : Action Next) :=
        .bind fun _ => .bind fun _ => .bind fun _ => .bind fun _ => .bind fun _ => .pure rfl
      exact .bind fun _ => .bind fun _ => .ite (.bind fun _ => written) written
  | loadTransient => exact .bind fun _ => .bind fun _ => .bind fun _ => .pure rfl
  | storeTransient =>
      exact .bind fun _ => .bind fun _ => .bind fun _ => .bind fun _ => .pure rfl
  | log topics =>
      refine .bind fun _ => .bind fun _ => .bind fun _ => .bind fun _ => .bind fun _ => ?_
      exact .bind fun _ => .bind fun _ => .bind fun _ => .pure rfl
  | create salted =>
      intro env a c next h
      obtain ⟨_, _, _, _, _, ⟨_, rfl, _⟩ | ⟨_, ⟨rfl, _⟩ | ⟨_, rfl, _⟩⟩⟩ := create_eq_ok h
      · rfl
      · rfl
      · rfl
  | call scheme =>
      intro env a c next h
      obtain ⟨_, _, _, ⟨_, hans⟩ | ⟨_, _, ⟨_, hans⟩ | ⟨_, rfl, _⟩⟩⟩ := call_eq_ok h
      · obtain ⟨rfl, _⟩ := answer_eq_ok hans
        rfl
      · obtain ⟨rfl, _⟩ := answer_eq_ok hans
        rfl
      · rfl
  | «return» => exact .bind fun _ => .pure rfl
  | revert => exact .bind fun _ => .throw _
  | invalid => exact .throw _
  | selfDestruct => exact .bind fun _ => .bind fun _ => .bind fun _ => .pure rfl

/-! ## The gas of an operation -/

/-- Only terminating operations and those on storage slots have no fixed price. -/
theorem price_pos (op : Operation) :
    0 < op.info.price ∨ op.info.terminating = true ∨ op = .loadSlot ∨ op = .storeSlot := by
  cases op with
  | frame op =>
      refine .inl ?_
      cases op with
      | binary f => cases f <;> decide
      | _ => exact Nat.succ_pos _
  | _ => simp [Operation.info]

/-- What is asked for a storage slot is more than nothing. -/
theorem loadSlot_spends (h : loadSlot env a = .ok next c) : c.frame.gas < a.frame.gas := by
  obtain ⟨key, a₁, h₁, h⟩ := bind_eq_ok.1 h
  obtain ⟨cost, a₂, h₂, h⟩ := bind_eq_ok.1 h
  obtain ⟨value, a₃, h₃, h⟩ := bind_eq_ok.1 h
  obtain ⟨_, a₄, h₄, h⟩ := bind_eq_ok.1 h
  have before : a.Runs a₃ := (keeps_pop.of_eq_ok h₁).trans
    (((keeps_onStorage _ fun _ => ⟨rfl, rfl⟩).of_eq_ok h₂).trans
      ((keeps_onStorage _ fun _ => ⟨rfl, rfl⟩).of_eq_ok h₃))
  have after : a₄.Runs c := ((keeps_push value).bind fun _ => .pure _).of_eq_ok h
  have hcost : 0 < cost := by
    rw [onStorage_apply] at h₂
    obtain ⟨rfl, _⟩ := EStateM.Result.ok.inj h₂
    exact Storage.readCost_pos _ key
  obtain ⟨hle, rfl⟩ := charge_eq_ok h₄
  have hbefore := before.frame.gas
  have hafter : c.frame.gas ≤ a₃.frame.gas - cost := after.frame.gas
  omega

theorem storeSlot_spends (h : storeSlot env a = .ok next c) : c.frame.gas < a.frame.gas := by
  obtain ⟨_, a₀, h₀, h⟩ := bind_eq_ok.1 h
  rw [get_bind] at h
  obtain ⟨_, ha₀⟩ := demandChangeable_eq_ok.1 h₀
  by_cases hstipend : a₀.frame.gas ≤ Gas.stipend
  · rw [if_pos hstipend] at h
    obtain ⟨_, _, hthrow, _⟩ := bind_eq_ok.1 h
    exact absurd hthrow throw_ne_ok
  rw [if_neg hstipend] at h
  obtain ⟨key, a₁, h₁, h⟩ := bind_eq_ok.1 h
  obtain ⟨value, a₂, h₂, h⟩ := bind_eq_ok.1 h
  obtain ⟨cost, a₃, h₃, h⟩ := bind_eq_ok.1 h
  obtain ⟨_, a₄, h₄, h⟩ := bind_eq_ok.1 h
  obtain ⟨_, a₅, h₅, h⟩ := bind_eq_ok.1 h
  obtain ⟨_, hc⟩ := pure_eq_ok.1 h
  have popped : a.Runs a₂ := by
    rw [← ha₀]
    exact (keeps_pop.of_eq_ok h₁).trans (keeps_pop.of_eq_ok h₂)
  rw [onStorage_apply] at h₃ h₅
  obtain ⟨rfl, ha₃⟩ := EStateM.Result.ok.inj h₃
  obtain ⟨_, ha₅⟩ := EStateM.Result.ok.inj h₅
  obtain ⟨hle, ha₄⟩ := charge_eq_ok h₄
  have hcost := Storage.writeCost_pos (a₂.world.accounts.read a₂.frame.account).storage key value
  have hpopped := popped.frame.gas
  rw [← hc, ← ha₅, ha₄]
  rw [← ha₃] at hle ⊢
  show a₂.frame.gas - _ < _
  have hle : _ ≤ a₂.frame.gas := hle
  omega

/-! ## The whole of an instruction -/

/-- An instruction performs its operation once the stack is checked and the price is paid. -/
theorem instruction_of_operation {op : Operation} (env : Environment)
    (hop : a.operation? = some op) :
    instruction env a =
      if a.frame.stack.size < op.info.inputs then .error .stackUnderrun a.fetched
      else if Stack.limit < a.frame.stack.size - op.info.inputs + op.info.outputs then
        .error .stackLimitExceeded a.fetched
      else if op.info.price ≤ a.frame.gas then perform op env (a.started op)
      else .error (.outOfGas a.frame.gas op.info.price) a.fetched := by
  have fetch : FrameM.fetch a.frame = .ok (Code.opcodeAt a.frame.code a.frame.pc) a.fetched.frame :=
    rfl
  have known : Operation.decode? (Code.opcodeAt a.frame.code a.frame.pc) = some op := hop
  have checked := FrameM.prepare_apply op.info a.fetched.frame
  have fails : ∀ {fault}, FrameM.prepare op.info a.fetched.frame = .error fault a.fetched.frame →
      (onFrame (FrameM.prepare op.info) >>= fun _ => perform op) env a.fetched =
        .error fault a.fetched := fun failed =>
    bind_of_eq_error (onFrame_of_eq_error (a := a.fetched) failed env) _
  rw [instruction, bind_of_eq_ok (onFrame_of_eq_ok fetch env), known]
  by_cases inputs : a.frame.stack.size < op.info.inputs
  · rw [if_pos inputs]
    exact fails (checked.trans (if_pos inputs))
  · rw [if_neg inputs]
    by_cases room : Stack.limit < a.frame.stack.size - op.info.inputs + op.info.outputs
    · rw [if_pos room]
      exact fails (checked.trans ((if_neg inputs).trans (if_pos room)))
    · rw [if_neg room]
      have charged := checked.trans ((if_neg inputs).trans ((if_neg room).trans
        (FrameM.charge_apply _ _)))
      by_cases price : op.info.price ≤ a.frame.gas
      · rw [if_pos price]
        have paid := charged.trans (if_pos price)
        exact bind_of_eq_ok (onFrame_of_eq_ok (a := a.fetched) paid env) _
      · rw [if_neg price]
        exact fails (charged.trans (if_neg price))

theorem instruction_of_starts {op : Operation} (env : Environment) (starts : a.Starts op) :
    instruction env a = perform op env (a.started op) := by
  rw [instruction_of_operation env starts.operation, if_neg (Nat.not_lt.2 starts.inputs),
    if_neg (Nat.not_lt.2 starts.room), if_pos starts.price]

/-- An instruction starts its operation, or faults right behind its byte. -/
theorem instruction_starts_or_fails (env : Environment) (a : Active) :
    (∃ op, a.Starts op) ∨
      ∃ fault, a.Unstarted fault ∧ instruction env a = .error fault a.fetched := by
  cases hop : a.operation? with
  | none =>
      have unknown : Operation.decode? (Code.opcodeAt a.frame.code a.frame.pc) = none := hop
      have fetch : FrameM.fetch a.frame =
          .ok (Code.opcodeAt a.frame.code a.frame.pc) a.fetched.frame := rfl
      refine .inr ⟨_, .undefined hop, ?_⟩
      rw [instruction, bind_of_eq_ok (onFrame_of_eq_ok fetch env), unknown]
      rfl
  | some op =>
      have performed := instruction_of_operation env hop
      by_cases inputs : a.frame.stack.size < op.info.inputs
      · exact .inr ⟨_, .underrun hop inputs, performed.trans (if_pos inputs)⟩
      have performed := performed.trans (if_neg inputs)
      by_cases room : Stack.limit < a.frame.stack.size - op.info.inputs + op.info.outputs
      · exact .inr ⟨_, .overflow hop room, performed.trans (if_pos room)⟩
      have performed := performed.trans (if_neg room)
      by_cases price : op.info.price ≤ a.frame.gas
      · exact .inl ⟨op, hop, Nat.le_of_not_lt inputs, Nat.le_of_not_lt room, price⟩
      · have unpaid := Nat.lt_of_not_le price
        exact .inr ⟨_, .unpaid hop unpaid, performed.trans (if_neg price)⟩

/-- An instruction starts its operation, or faults before that and leaves the world. -/
theorem instruction_apply (env : Environment) (a : Active) :
    (∃ op, a.Starts op ∧ instruction env a = perform op env (a.started op)) ∨
      ∃ fault f, instruction env a = .error fault { a with frame := f } ∧ a.frame.Later f := by
  obtain ⟨op, starts⟩ | ⟨fault, _, fails⟩ := instruction_starts_or_fails env a
  · exact .inl ⟨op, starts, instruction_of_starts env starts⟩
  · exact .inr ⟨fault, a.fetched.frame, fails, .move _ _⟩

/-- What an instruction gives is what its operation gives. -/
theorem instruction_eq_ok (h : instruction env a = .ok next c) :
    ∃ op, a.Starts op ∧ perform op env (a.started op) = .ok next c := by
  obtain ⟨op, starts, hop⟩ | ⟨fault, f, hf, _⟩ := instruction_apply env a
  · exact ⟨op, starts, hop.symm.trans h⟩
  · rw [hf] at h
    exact absurd h nofun

/-- An instruction that faults leaves its frame a later state of itself, and puts no account under
construction. -/
theorem instruction_eq_error {fault : Fault} (h : instruction env a = .error fault c) :
    a.frame.Later c.frame ∧
      World.Reaches a.frame.account a.frame.isStatic noSites a.world c.world := by
  obtain ⟨op, starts, hop⟩ | ⟨fault', f, hf, later⟩ := instruction_apply env a
  · rw [hop] at h
    by_cases hd : op = .selfDestruct
    · subst hd
      have failed := selfDestruct_eq_error h
      exact ⟨(a.started_later _).frame.trans failed.frame.toLater, failed.world⟩
    · have leads := perform_leads hd env a
      rw [h] at leads
      exact ⟨(a.passed_later op).frame.trans leads.frame.toLater, leads.world⟩
  · rw [hf] at h
    obtain ⟨_, rfl⟩ := EStateM.Result.error.inj h
    exact ⟨later, .refl⟩

theorem instruction_error_later {fault : Fault} (h : instruction env a = .error fault c) :
    a.Later c := by
  obtain ⟨later, world⟩ := instruction_eq_error h
  exact ⟨later, world.mono fun _ => False.elim⟩

theorem Destroys.of_started {op : Operation} {beneficiary : Address}
    (h : Destroys beneficiary (a.started op) c) : Destroys beneficiary a c := by
  obtain ⟨b, opens, rfl⟩ := h
  refine ⟨b, ⟨(a.started_later op).trans opens.toLater, opens.changeable, opens.accounts,
    opens.logs, opens.beneficiary⟩, rfl⟩

/-- An instruction that gives a value has run its frame on from behind itself, or has destroyed the
account. -/
theorem instruction_leads_or_destroys (h : instruction env a = .ok next c) :
    (∃ op, a.Starts op ∧ LeadsTo op next ∧ (a.passed op).Leads (.ok next c)) ∨
      next = .halt ByteArray.empty ∧ a.operation? = some .selfDestruct ∧
        ∃ beneficiary, Destroys beneficiary a c := by
  obtain ⟨op, starts, hop⟩ := instruction_eq_ok h
  by_cases hd : op = .selfDestruct
  · subst hd
    obtain ⟨hnext, beneficiary, destroys⟩ := selfDestruct_eq_ok hop
    exact .inr ⟨hnext, starts.operation, beneficiary, destroys.of_started⟩
  · have leads := perform_leads hd env a
    rw [hop] at leads
    exact .inl ⟨op, starts, gives_perform op hop, leads⟩

/-- An instruction that gives a value leaves its frame a later state of itself, or has destroyed
the account. -/
theorem instruction_later_or_destroys (h : instruction env a = .ok next c) :
    a.Later c ∨ next = .halt ByteArray.empty ∧ a.operation? = some .selfDestruct ∧
      ∃ beneficiary, Destroys beneficiary a c :=
  (instruction_leads_or_destroys h).imp_left fun ⟨op, _, _, leads⟩ =>
    (a.passed_later op).trans leads.later

/-- An instruction that gives a value leaves its frame a later state of itself. -/
theorem instruction_frame (h : instruction env a = .ok next c) : a.frame.Later c.frame := by
  obtain later | ⟨_, _, _, _, opens, rfl⟩ := instruction_later_or_destroys h
  · exact later.frame
  · exact opens.frame

/-- An instruction after which its frame goes on has spent gas. -/
theorem instruction_spends (h : instruction env a = .ok .proceed c) :
    c.frame.gas < a.frame.gas := by
  obtain ⟨op, starts, hop⟩ := instruction_eq_ok h
  have hstart := starts.gas
  have hgoes : op.info.terminating = false := gives_perform op hop
  obtain hprice | hends | rfl | rfl := price_pos op
  · have hd : op ≠ .selfDestruct := by
      rintro rfl
      simp [Operation.info] at hgoes
    have leads := perform_leads hd env a
    rw [hop] at leads
    have hlater : c.frame.gas ≤ (a.started op).frame.gas := leads.frame.gas
    omega
  · simp [hends] at hgoes
  · have hspent := loadSlot_spends hop
    omega
  · have hspent := storeSlot_spends hop
    omega

end Action

end EvmHarness
