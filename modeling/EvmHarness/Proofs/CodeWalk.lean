import EvmHarness.Proofs.RunInvariant
set_option autoImplicit false

/-!
# Pushed bytes are never executed

Two walks go over a code from its front: that of the search for jump destinations, and that of the
program counter.  Both go from instruction to instruction, the counter also by jumps to what the
search has found, so neither ever stands among the bytes that belong to a pushing instruction.
-/

namespace EvmHarness

namespace Code

variable {code : ByteArray} {p q : Nat} {found : Std.ExtTreeSet Nat}

/-! ## The search for jump destinations -/

/-- The search keeps what it has found. -/
theorem mem_jumpDestsFrom (h : q ∈ found) : q ∈ jumpDestsFrom code p found := by
  fun_induction jumpDestsFrom code p found with
  | case1 p found inside opcode ih =>
      refine ih ?_
      split
      · exact Std.ExtTreeSet.mem_insert.2 (.inr h)
      · exact h
  | case2 p found outside => exact h

/-- From an instruction start on, the search adds instruction starts that hold the jump
destination. -/
theorem of_mem_jumpDestsFrom (hp : IsStart code p) (hq : q ∈ jumpDestsFrom code p found) :
    q ∈ found ∨
      IsStart code q ∧ q < code.size ∧ Bytes.byteAt code q = Operation.jumpDestByte := by
  fun_induction jumpDestsFrom code p found with
  | case1 p found inside opcode ih =>
      have hbyte : Bytes.byteAt code p = opcode := Bytes.byteAt_of_lt inside
      have next := hp.next inside
      rw [hbyte] at next
      obtain hmem | hdest := ih next hq
      · split at hmem
        · rename_i hdest
          obtain hcompare | hmem := Std.ExtTreeSet.mem_insert.1 hmem
          · obtain rfl := Std.LawfulEqCmp.compare_eq_iff_eq.1 hcompare
            exact .inr ⟨hp, inside, hbyte.trans hdest⟩
          · exact .inl hmem
        · exact .inl hmem
      · exact .inr hdest
  | case2 p found outside => exact .inl hq

/-- The search comes to every instruction start. -/
theorem IsStart.visited (h : IsStart code p) :
    ∃ found, jumpDests code = jumpDestsFrom code p found := by
  induction h with
  | first => exact ⟨∅, rfl⟩
  | next _ inside ih =>
      obtain ⟨found, hfound⟩ := ih
      rw [jumpDestsFrom_of_lt inside, ← Bytes.byteAt_of_lt inside] at hfound
      exact ⟨_, hfound⟩

/-- The jump destinations are the instruction starts that hold the byte for it. -/
theorem mem_jumpDests : p ∈ jumpDests code ↔
    IsStart code p ∧ p < code.size ∧ Bytes.byteAt code p = Operation.jumpDestByte := by
  constructor
  · intro h
    exact (of_mem_jumpDestsFrom .first h).resolve_left Std.ExtTreeSet.not_mem_empty
  · rintro ⟨start, inside, hbyte⟩
    obtain ⟨found, hfound⟩ := start.visited
    rw [hfound, jumpDestsFrom_of_lt inside, if_pos ((Bytes.byteAt_of_lt inside).symm.trans hbyte)]
    exact mem_jumpDestsFrom Std.ExtTreeSet.mem_insert_self

end Code

/-! ## The walk of the program counter -/

/-- The frame is in front of an instruction of its code, and knows the jump destinations of that
code. -/
structure Frame.AtStart (f : Frame) : Prop where
  start : Code.IsStart f.code f.pc
  jumpDests : f.jumpDests = Code.jumpDests f.code

/-- A frame that runs on has not moved, or only to a jump destination. -/
theorem Frame.Runs.atStart {f g : Frame} (h : f.Runs g) (hf : f.AtStart) : g.AtStart := by
  refine ⟨?_, by rw [h.jumpDests, h.code, hf.jumpDests]⟩
  rw [h.code]
  obtain hpc | hjump := h.counter
  · rw [hpc]
    exact hf.start
  · rw [hf.jumpDests] at hjump
    exact (Code.mem_jumpDests.1 (Std.ExtTreeSet.mem_iff_contains.2 hjump)).1

theorem Frame.Fresh.atStart {f : Frame} (h : f.Fresh) : f.AtStart := by
  refine ⟨?_, h.jumpDests⟩
  rw [h.pc]
  exact .first

namespace Active

variable {op : Operation} {a : Active}

/-- Past the end of the code there is nothing but stops. -/
theorem Starts.inside (h : a.Starts op) (hop : op ≠ .stop) : a.frame.pc < a.frame.code.size := by
  by_cases hpc : a.frame.pc < a.frame.code.size
  · exact hpc
  · have hdecode : Operation.decode? (Bytes.byteAt a.frame.code a.frame.pc) = some op := h.operation
    rw [Bytes.byteAt_of_le (Nat.le_of_not_lt hpc)] at hdecode
    exact absurd (Option.some.inj hdecode).symm hop

/-- The bytes that belong to an instruction are those that its operation passes. -/
theorem Starts.immediates (h : a.Starts op) :
    Operation.immediatesOf (Bytes.byteAt a.frame.code a.frame.pc) = op.immediateSize := by
  have hdecode : Operation.decode? (Bytes.byteAt a.frame.code a.frame.pc) = some op := h.operation
  have heq := Operation.immediatesOf_eq (Bytes.byteAt a.frame.code a.frame.pc).toFin
  rw [UInt8.ofFin_toFin, hdecode] at heq
  exact heq

/-- Behind an instruction and the bytes that belong to it there is the next one. -/
theorem Starts.atStart (h : a.Starts op) (hop : op ≠ .stop) (ha : a.frame.AtStart) :
    (a.passed op).frame.AtStart := by
  refine ⟨?_, ha.jumpDests⟩
  have next := ha.start.next (h.inside hop)
  rw [h.immediates] at next
  exact next

end Active

/-- An instruction after which its frame can go on leaves it in front of an instruction. -/
theorem Action.instruction_atStart {env : Environment} {a c : Active} {next : Next}
    (h : instruction env a = .ok next c) (goes : ∀ output, next ≠ .halt output)
    (ha : a.frame.AtStart) : c.frame.AtStart := by
  obtain ⟨op, starts, hnext, leads⟩ | ⟨rfl, _⟩ := instruction_leads_or_destroys h
  · refine leads.frame.atStart (starts.atStart ?_ ha)
    rintro rfl
    cases next with
    | proceed => exact absurd hnext nofun
    | enter callee purpose reversion => exact absurd hnext nofun
    | halt output => exact goes output rfl
  · exact absurd rfl (goes _)

namespace Machine

/-- The running frame and the suspended ones, the innermost first. -/
def frames (m : Machine) : List Frame := m.frame :: m.suspended.map (·.frame)

theorem forall_mem_frames {m : Machine} {P : Frame → Prop} :
    (∀ f ∈ m.frames, P f) ↔ P m.frame ∧ ∀ s ∈ m.suspended, P s.frame := by
  simp [frames]

/-- Every frame is in front of an instruction, until it has ended. -/
def walking : FrameInvariant where
  running _ a := a.frame.AtStart
  ended _ _ := True
  waiting _ s := s.frame.AtStart

theorem carries_walking (m : Machine) : m.Carries walking where
  proceed ha h := Action.instruction_atStart h nofun ha
  enter ha h := ⟨(Action.instruction_enters h).fresh.atStart, Action.instruction_atStart h nofun ha⟩
  ends _ _ := trivial
  resume := by
    intro outcome b s rest f hs _ runs
    exact runs.atStart ⟨hs.start, hs.jumpDests⟩

theorem Reachable.holds_walking {m : Machine} (h : m.Reachable) : m.Holds walking [] := by
  apply h.holds carries_walking
  intro tx gasLimit before m h
  obtain ⟨_, rfl⟩ := Transaction.prepare_eq_ok.1 h
  exact ⟨.first, rfl⟩

/-- The search for jump destinations finds exactly the instruction starts that hold the byte for
one, and as long as a machine has no result, every frame of it is in front of an instruction of its
own code. -/
theorem pushed_bytes_never_executed :
    (∀ (code : ByteArray) (p : Nat), p ∈ Code.jumpDests code ↔
        Code.IsStart code p ∧ p < code.size ∧ Bytes.byteAt code p = Operation.jumpDestByte) ∧
      ∀ m : Machine, m.Reachable → m.result = none → ∀ f ∈ m.frames, Code.IsStart f.code f.pc := by
  constructor
  · intro code p
    exact Code.mem_jumpDests
  · intro m reachable running
    have holds := reachable.holds_walking
    refine forall_mem_frames.2 ⟨(holds.running running).start, ?_⟩
    intro s hs
    obtain ⟨_, waits⟩ := holds.of_mem hs
    exact waits.start

/-- A machine whose running frame has jumped over a byte for a jump destination that belongs to a
pushing instruction, and has then pushed bytes past the end of its code. -/
def cutPush : Machine :=
  step^[12] (Transaction.ofFirst.opening 100000 (ofCodes
    ⟨#[0x5f, 0x5f, 0x5f, 0x5f, 0x5f, 0x60, 2, 0x5a, 0xf1]⟩
    ⟨#[0x60, 6, 0x56, 0x60, 0x5b, 0x00, 0x5b, 0x61, 0x5b]⟩))

theorem cutPush_in_front_of_instructions :
    cutPush.depth = 1 ∧ cutPush.frame.pc = 10 ∧ ∀ f ∈ cutPush.frames, Code.IsStart f.code f.pc := by
  have running : cutPush.result = none := Option.isNone_iff_eq_none.1 (by decide +kernel)
  have reachable : cutPush.Reachable :=
    (Reachable.prepared (Transaction.prepare_ofFirst _ _)).iterate 12
  refine ⟨by decide +kernel, by decide +kernel, ?_⟩
  exact pushed_bytes_never_executed.2 cutPush reachable running

end Machine

end EvmHarness
