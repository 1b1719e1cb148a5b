import EvmHarness.Proofs.HexAcceptance
import EvmHarness.Report
set_option autoImplicit false

/-!
# What is rejected as hexadecimal text

The reader takes two bytes of text at a time.  Where these end inside a character it stops without
an answer; that needs a character of several bytes behind pairs that can be read.  Every other text
is either read or rejected with a fault that names what is left of it without blanks and marks, and
so are the code and the input of a request to execute code.
-/

namespace EvmHarness

namespace Hex

/-! ## Two bytes that end inside a character -/

/-- The pairs before this one can be read, and its two bytes end inside a character. -/
structure SplitsAt (cs : List Char) (pairs : Nat) : Prop where
  even : (String.ofList cs).utf8ByteSize % 2 = 0
  inside : 2 * pairs < (String.ofList cs).utf8ByteSize
  read : ∃ front back bytes, cs = front ++ back ∧ Spells (unsigned front) bytes ∧
    bytes.length = pairs
  splits : ¬ (⟨2 * pairs + 2⟩ : String.Pos.Raw).IsValid (String.ofList cs)

/-- Some pair of what must be digits splits a character. -/
def SplitsCharacter (text : String) : Prop := ∃ pairs, SplitsAt (payload text) pairs

variable {cs : List Char} {bytes : List UInt8}

/-- A character ends where the characters up to it have this many bytes. -/
theorem isValid_ofList_iff {offset : Nat} :
    (⟨offset⟩ : String.Pos.Raw).IsValid (String.ofList cs) ↔
      ∃ front back, cs = front ++ back ∧ String.utf8Len front = offset := by
  rw [String.Pos.Raw.isValid_iff_exists_append]
  constructor
  · rintro ⟨front, back, split, reach⟩
    refine ⟨front.toList, back.toList, ?_, ?_⟩
    · rw [← String.toList_append, ← split, String.toList_ofList]
    · rw [String.utf8Len_toList]
      exact (congrArg String.Pos.Raw.byteIdx reach).symm
  · rintro ⟨front, back, rfl, rfl⟩
    refine ⟨String.ofList front, String.ofList back, String.ofList_append, ?_⟩
    rw [String.Pos.Raw.ext_iff]
    exact (String.utf8ByteSize_ofList front).symm

/-- The first two bytes end with a character where they are one character or two. -/
theorem isValid_two_iff {c : Char} {rest : List Char} :
    (⟨2⟩ : String.Pos.Raw).IsValid (String.ofList (c :: rest)) ↔
      c.utf8Size = 2 ∨ c.utf8Size = 1 ∧ ∃ d rest', rest = d :: rest' ∧ d.utf8Size = 1 := by
  rw [isValid_ofList_iff]
  have wide := c.utf8Size_pos
  constructor
  · rintro ⟨front, back, split, reach⟩
    match front, split, reach with
    | [c'], split, reach =>
        obtain ⟨rfl, rfl⟩ := List.cons.inj split
        exact .inl (by simpa using reach)
    | c' :: d :: front, split, reach =>
        obtain ⟨rfl, rfl⟩ := List.cons.inj split
        have wide' := d.utf8Size_pos
        simp only [String.utf8Len_cons] at reach
        exact .inr ⟨by omega, d, front ++ back, rfl, by omega⟩
  · rintro (whole | ⟨first, d, rest', rfl, second⟩)
    · exact ⟨[c], rest, rfl, by simpa using whole⟩
    · exact ⟨[c, d], rest', rfl, by simp [first, second]⟩

/-- Behind characters that are all taken, ends of characters are those of the rest. -/
theorem isValid_append_iff {front back : List Char} {offset : Nat} (h : 0 < offset) :
    (⟨String.utf8Len front + offset⟩ : String.Pos.Raw).IsValid (String.ofList (front ++ back)) ↔
      (⟨offset⟩ : String.Pos.Raw).IsValid (String.ofList back) := by
  simp only [isValid_ofList_iff]
  constructor
  · rintro ⟨taken, left, split, reach⟩
    obtain ⟨more, rfl, rfl⟩ | ⟨less, rfl, rfl⟩ := List.append_eq_append_iff.1 split
    · rw [String.utf8Len_append] at reach
      exact ⟨more, left, rfl, by omega⟩
    · rw [String.utf8Len_append] at reach
      omega
  · rintro ⟨taken, left, rfl, rfl⟩
    exact ⟨front ++ taken, left, (List.append_assoc _ _ _).symm, String.utf8Len_append _ _⟩

theorem utf8Len_of_narrow (h : ∀ c ∈ cs, c.utf8Size = 1) : String.utf8Len cs = cs.length := by
  induction cs with
  | nil => rfl
  | cons c cs ih =>
      simp only [List.mem_cons, forall_eq_or_imp] at h
      rw [String.utf8Len_cons, ih h.2, h.1, List.length_cons]

theorem Spells.utf8Len_unsigned (h : Spells (unsigned cs) bytes) :
    String.utf8Len cs = 2 * bytes.length := by
  rw [← Hex.utf8Len_unsigned, ← String.utf8ByteSize_ofList, h.size]

/-- The pair that splits a character is the first one behind those that can be read. -/
theorem splitsAt_iff {pairs : Nat} (even : (String.ofList cs).utf8ByteSize % 2 = 0) :
    SplitsAt cs pairs ↔ ∃ front back bytes, cs = front ++ back ∧ Spells (unsigned front) bytes ∧
      bytes.length = pairs ∧ back ≠ [] ∧
      ¬ (⟨2⟩ : String.Pos.Raw).IsValid (String.ofList back) := by
  constructor
  · rintro ⟨-, inside, ⟨front, back, bytes, rfl, spells, rfl⟩, splits⟩
    have wide := spells.utf8Len_unsigned
    refine ⟨front, back, bytes, rfl, spells, rfl, ?_, ?_⟩
    · rintro rfl
      rw [List.append_nil, String.utf8ByteSize_ofList] at inside
      omega
    · rwa [← wide, isValid_append_iff (by decide)] at splits
  · rintro ⟨front, back, bytes, rfl, spells, rfl, some, splits⟩
    have wide := spells.utf8Len_unsigned
    have more : String.utf8Len back ≠ 0 := fun none => some (String.utf8Len_eq_zero.1 none)
    refine ⟨even, ?_, ⟨front, back, bytes, rfl, spells, rfl⟩, ?_⟩
    · rw [String.utf8ByteSize_ofList, String.utf8Len_append]
      omega
    · rwa [← wide, isValid_append_iff (by decide)]

/-! ## Reading up to the pair -/

/-- The first byte is read from the first pair, and the others from what is behind it. -/
theorem Spells.pair_of_unsigned {b : UInt8} (h : Spells (unsigned cs) (b :: bytes)) :
    ∃ c d rest, cs = c :: d :: rest ∧ pairValue? c d = some b ∧ Spells (unsigned rest) bytes := by
  cases cs with
  | nil => exact absurd h.length nofun
  | cons c tail =>
      cases tail with
      | nil =>
          have odd : [c].length = 2 * (b :: bytes).length := h.length
          simp only [List.length_cons, List.length_nil] at odd
          omega
      | cons d rest =>
          obtain ⟨high, low, spells⟩ := spells_cons_iff.1 h
          exact ⟨c, d, rest, rfl, pairValue?_eq_some_iff.2 ⟨high, low⟩, spells⟩

/-- Behind pairs that can be read, the rest fails as it does alone. -/
theorem decodePairs_append_error {front back : List Char} {fault : PairFault}
    (h : Spells (unsigned front) bytes) :
    decodePairs (front ++ back) = .error fault ↔ decodePairs back = .error fault := by
  induction bytes generalizing front with
  | nil =>
      have nothing : front = [] := String.utf8Len_eq_zero.1 h.utf8Len_unsigned
      rw [nothing, List.nil_append]
  | cons b bytes ih =>
      obtain ⟨c, d, front, rfl, value, spells⟩ := h.pair_of_unsigned
      obtain ⟨first, second⟩ := narrow_of_pairValue? value
      rw [List.cons_append, List.cons_append, decodePairs, if_pos first, if_pos second, value,
        ← ih spells]
      cases decodePairs (front ++ back) with
      | ok bytes => simp only [Except.map, reduceCtorEq]
      | error fault' => exact Iff.rfl

/-- Two bytes that end inside a character stop the reader. -/
theorem decodePairs_of_splits (even : String.utf8Len cs % 2 = 0) (some : cs ≠ [])
    (splits : ¬ (⟨2⟩ : String.Pos.Raw).IsValid (String.ofList cs)) :
    decodePairs cs = .error .splitsCharacter := by
  match cs, some with
  | [c], _ =>
      rw [isValid_two_iff] at splits
      simp only [String.utf8Len_cons, String.utf8Len_nil] at even
      have wide := c.utf8Size_pos
      have wider : ¬ c.utf8Size ≤ 2 := fun narrow => splits (.inl (by omega))
      rw [decodePairs, if_neg wider]
  | c :: d :: rest, _ =>
      rw [isValid_two_iff, not_or, not_and] at splits
      rw [decodePairs]
      split
      · rename_i first
        rw [if_neg fun second => splits.2 first ⟨d, rest, rfl, second⟩]
      · rw [if_neg splits.1]

theorem splitsAt_zero (even : (String.ofList cs).utf8ByteSize % 2 = 0) (some : cs ≠ [])
    (splits : ¬ (⟨2⟩ : String.Pos.Raw).IsValid (String.ofList cs)) : SplitsAt cs 0 :=
  (splitsAt_iff even).2 ⟨[], cs, [], rfl, rfl, rfl, some, splits⟩

theorem exists_splitsAt (even : (String.ofList cs).utf8ByteSize % 2 = 0)
    (h : decodePairs cs = .error .splitsCharacter) : ∃ pairs, SplitsAt cs pairs := by
  induction cs using decodePairs.induct with
  | case1 => cases h
  | case2 c =>
      refine ⟨0, splitsAt_zero even (List.cons_ne_nil _ _) fun whole => ?_⟩
      rw [decodePairs] at h
      split at h
      · cases h
      · rename_i wide
        obtain two | ⟨-, d, rest', none, -⟩ := isValid_two_iff.1 whole
        · omega
        · cases none
  | case3 c d rest first second none =>
      rw [decodePairs, if_pos first, if_pos second, none] at h
      cases h
  | case4 c d rest first second b value ih =>
      rw [decodePairs, if_pos first, if_pos second, value] at h
      have fails : decodePairs rest = .error .splitsCharacter := by
        cases read : decodePairs rest with
        | ok bytes => rw [read] at h; cases h
        | error fault => rw [read] at h; exact h
      have even' : (String.ofList rest).utf8ByteSize % 2 = 0 := by
        rw [String.utf8ByteSize_ofList] at even ⊢
        simp only [String.utf8Len_cons, first, second] at even
        omega
      obtain ⟨pairs, later⟩ := ih even' fails
      obtain ⟨front, back, bytes, rfl, spells, -, some, splits⟩ := (splitsAt_iff even').1 later
      obtain ⟨high, low⟩ := pairValue?_eq_some_iff.1 value
      refine ⟨(b :: bytes).length, (splitsAt_iff even).2 ⟨c :: d :: front, back, b :: bytes, rfl,
        ?_, rfl, some, splits⟩⟩
      exact spells_cons_iff.2 ⟨high, low, spells⟩
  | case5 c d rest first second =>
      refine ⟨0, splitsAt_zero even (List.cons_ne_nil _ _) fun whole => ?_⟩
      obtain two | ⟨-, d', rest', same, narrow⟩ := isValid_two_iff.1 whole
      · omega
      · exact second ((List.cons.inj same).1 ▸ narrow)
  | case6 c d rest first second =>
      rw [decodePairs, if_neg first, if_pos second] at h
      cases h
  | case7 c d rest first second =>
      refine ⟨0, splitsAt_zero even (List.cons_ne_nil _ _) fun whole => ?_⟩
      obtain two | ⟨one, -⟩ := isValid_two_iff.1 whole
      · exact second two
      · exact first one

/-! ## Texts that are rejected -/

variable {text : String}

theorem decode_eq_splits_iff :
    decode text = .error .splitsCharacter ↔ SplitsCharacter text := by
  constructor
  · intro h
    unfold decode at h
    dsimp only at h
    split at h
    · cases h
    · rename_i whole
      split at h
      · cases h
      · cases h
      · rename_i stops
        exact exists_splitsAt (by omega) stops
  · rintro ⟨pairs, h⟩
    obtain ⟨front, back, bytes, split, spells, -, some, splits⟩ := (splitsAt_iff h.even).1 h
    have whole := h.even
    have rest : String.utf8Len back % 2 = 0 := by
      have wide := spells.utf8Len_unsigned
      rw [split, String.utf8ByteSize_ofList, String.utf8Len_append] at whole
      omega
    have stops : decodePairs (payload text) = .error .splitsCharacter := by
      rw [split]
      exact (decodePairs_append_error spells).2 (decodePairs_of_splits rest some splits)
    unfold decode
    dsimp only
    rw [if_neg (by omega), stops]

/-- The fault of a text that is read to its end and is no byte string.  It names what is left of
the text without blanks and marks. -/
def rejection (text : String) : Fault :=
  let digits := String.ofList (payload text)
  if digits.utf8ByteSize % 2 = 0 then .notDigits digits else .oddLength digits

theorem accepted_or_rejected (h : ¬ SplitsCharacter text) :
    (∃ b, decode text = .ok b) ∨ decode text = .error (rejection text) := by
  rw [← decode_eq_splits_iff] at h
  unfold decode rejection at *
  dsimp only at *
  split at h
  · rename_i odd
    rw [if_pos odd, if_neg odd]
    exact .inr rfl
  · rename_i whole
    rw [if_neg whole, if_pos (not_not.1 whole)]
    cases read : decodePairs (payload text) with
    | ok bytes => exact .inl ⟨_, rfl⟩
    | error fault =>
        cases fault with
        | notDigits => exact .inr rfl
        | splitsCharacter => rw [read] at h; exact absurd rfl h

/-- Only a character of several bytes can be split. -/
theorem SplitsCharacter.exists_wide (h : SplitsCharacter text) :
    ∃ c ∈ payload text, 127 < c.toNat := by
  obtain ⟨pairs, h⟩ := h
  by_contra narrow
  have ascii : ∀ c ∈ payload text, c.utf8Size = 1 := by
    intro c hc
    rw [Char.utf8Size_eq_one_iff, UInt32.le_iff_toNat_le]
    exact Nat.le_of_not_lt fun wide => narrow ⟨c, hc, wide⟩
  -- every offset is then the end of a character
  have total : (payload text).length % 2 = 0 ∧ 2 * pairs < (payload text).length := by
    rw [← utf8Len_of_narrow ascii, ← String.utf8ByteSize_ofList]
    exact ⟨h.even, h.inside⟩
  refine h.splits (isValid_ofList_iff.2 ⟨(payload text).take (2 * pairs + 2),
    (payload text).drop (2 * pairs + 2), (List.take_append_drop _ _).symm, ?_⟩)
  rw [utf8Len_of_narrow fun c hc => ascii c (List.mem_of_mem_take hc), List.length_take]
  omega

end Hex

/-! ## Requests that are rejected -/

namespace ExecFault

/-- A computation that does not fail for a text that is no byte string. -/
def NoBadBytes {α : Type} (x : Except ExecFault α) : Prop := ∀ fault, x ≠ .error (.badBytes fault)

variable {α β ε : Type}

theorem noBadBytes_pure (a : α) : NoBadBytes (.ok a) := fun _ => nofun

theorem NoBadBytes.bind {x : Except ExecFault α} {f : α → Except ExecFault β} (hx : NoBadBytes x)
    (hf : ∀ a, NoBadBytes (f a)) : NoBadBytes (x >>= f) := by
  cases x with
  | ok a => exact hf a
  | error cause => exact fun fault failed => hx fault (congrArg Except.error (Except.error.inj failed))

theorem noBadBytes_mapError {f : ε → ExecFault} (h : ∀ cause fault, f cause ≠ .badBytes fault)
    (x : Except ε α) : NoBadBytes (x.mapError f) := by
  cases x with
  | ok a => exact noBadBytes_pure a
  | error cause => exact fun fault failed => h cause fault (Except.error.inj failed)

theorem noBadBytes_execute (b : Bench) (gasLimit : UInt64) (tx : Transaction) :
    NoBadBytes (b.execute gasLimit tx) := by
  intro fault
  unfold Bench.execute
  split
  · split <;> exact nofun
  · split <;> exact nofun

theorem noBadBytes_run (e : Execution) : NoBadBytes e.run := by
  have call (b : Bench) (deployment : Option Outcome) : NoBadBytes (e.runCall b deployment) :=
    (noBadBytes_execute _ _ _).bind fun _ => noBadBytes_pure _
  unfold Execution.run
  split
  · refine (noBadBytes_execute _ _ _).bind fun (outcome, b) => ?_
    dsimp only
    split
    · exact call _ _
    · exact noBadBytes_pure _
  · exact call _ _

theorem noBadBytes_readSender (r : ExecRequest) (s : Settings) : NoBadBytes (r.readSender s) := by
  unfold ExecRequest.readSender
  split
  · exact noBadBytes_mapError (by rintro _ _ ⟨⟩) _
  · exact noBadBytes_mapError (by rintro _ _ ⟨⟩) _

end ExecFault

namespace ExecRequest

open ExecFault

/-- A request fails for its code or its input just where these are no byte strings, the code
first. -/
theorem report_eq_badBytes_iff (r : ExecRequest) (s : Settings) (fault : Hex.Fault) :
    r.report s = .error (.badBytes fault) ↔ Hex.decode r.code = .error fault ∨
      (∃ code, Hex.decode r.code = .ok code) ∧ Hex.decode r.calldata = .error fault := by
  unfold report read
  cases Hex.decode r.code with
  | error cause =>
      constructor
      · intro failed
        cases failed
        exact .inl rfl
      · rintro (failed | ⟨⟨_, none⟩, -⟩)
        · cases failed
          rfl
        · cases none
  | ok code =>
      cases Hex.decode r.calldata with
      | error cause =>
          constructor
          · intro failed
            cases failed
            exact .inr ⟨⟨code, rfl⟩, rfl⟩
          · rintro (none | ⟨-, failed⟩)
            · cases none
            · cases failed
              rfl
      | ok calldata =>
          refine iff_of_false ?_ (by rintro (none | ⟨-, none⟩) <;> cases none)
          refine NoBadBytes.bind ?_ noBadBytes_run fault
          show NoBadBytes ((Address.parse r.target).mapError (.badTarget r.target) >>= _)
          refine (noBadBytes_mapError (by rintro _ _ ⟨⟩) _).bind fun target => ?_
          refine (noBadBytes_readSender r s).bind fun sender => ?_
          exact (noBadBytes_mapError (by rintro _ _ ⟨⟩) _).bind fun balance => noBadBytes_pure _

end ExecRequest

namespace Hex

/-- Reading stops without an answer just where a pair splits a character, which no text in ASCII
does; every other text is read, or rejected with what is left of it.  A request to execute code
fails likewise for its code or else for its input: it stops just where reading one of them stops,
and reports the text that is no byte string otherwise. -/
theorem answered_unless_split (text : String) (r : ExecRequest) (s : Settings) (fault : Fault) :
    (decode text = .error .splitsCharacter ↔ SplitsCharacter text) ∧
      (SplitsCharacter text → ∃ c ∈ payload text, 127 < c.toNat) ∧
      (¬ SplitsCharacter text →
        (∃ b, decode text = .ok b) ∨ decode text = .error (rejection text)) ∧
      (r.report s = .error (.badBytes fault) ↔ decode r.code = .error fault ∨
        (∃ code, decode r.code = .ok code) ∧ decode r.calldata = .error fault) :=
  ⟨decode_eq_splits_iff, SplitsCharacter.exists_wide, accepted_or_rejected,
    ExecRequest.report_eq_badBytes_iff r s fault⟩

/-- Characters of two bytes fill pairs and are rejected as no digits; behind a digit the first of
them would be split. -/
theorem wideDigits_rejected : ¬ SplitsCharacter "0xéé" ∧
    decode "0xéé" = .error (.notDigits "éé") ∧ rejection "0xéé" = .notDigits "éé" ∧
    { code := "0xéé" : ExecRequest }.report Settings.initial =
      .error (.badBytes (.notDigits "éé")) ∧
    SplitsCharacter "0éé0" ∧ ∃ c ∈ payload "0éé0", 127 < c.toNat := by
  have rejected : decode "0xéé" = .error (.notDigits "éé") := by decide +kernel
  obtain ⟨stops, -, answered, reports⟩ := answered_unless_split "0xéé" { code := "0xéé" }
    Settings.initial (.notDigits "éé")
  obtain ⟨stops', wide, -⟩ := answered_unless_split "0éé0" { code := "0éé0" } Settings.initial
    .splitsCharacter
  have whole : ¬ SplitsCharacter "0xéé" := by
    rw [← stops, rejected]
    exact nofun
  have split : SplitsCharacter "0éé0" := stops'.1 (by decide +kernel)
  have named : rejection "0xéé" = .notDigits "éé" := by
    obtain ⟨b, read⟩ | failed := answered whole
    · rw [rejected] at read
      cases read
    · exact Except.error.inj (failed.symm.trans rejected)
  exact ⟨whole, rejected, named, reports.2 (.inl rejected), split, wide split⟩

/-- A pair that takes half of a character stops the reader, and a request with it. -/
theorem splitCode_stops : decode "aé1" = .error .splitsCharacter ∧
    { code := "aé1" : ExecRequest }.report Settings.initial =
      .error (.badBytes .splitsCharacter) := by
  have stops : decode "aé1" = .error .splitsCharacter := by decide +kernel
  exact ⟨stops, (ExecRequest.report_eq_badBytes_iff _ _ _).2 (.inl stops)⟩

end Hex

end EvmHarness
