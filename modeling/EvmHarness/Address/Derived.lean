import EvmHarness.Address.Text
import EvmHarness.Rlp
set_option autoImplicit false

/-!
# Addresses of created accounts

A creation puts its account at an address that the creator's address determines, together with
either the creator's nonce, or a salt and the code that runs first.
-/

namespace EvmHarness.Address

/-- The address of the account that `creator` creates while its nonce is `nonce`. -/
def ofNonce (creator : Address) (nonce : Nat) : Address :=
  ofWord (Keccak.digest
    (Rlp.encodeList [Rlp.encodeBytes creator.toBytes, Rlp.encodeNumber nonce]))

/-- The address of the account that `creator` creates under a salt from an initial code. -/
def ofSalt (creator : Address) (salt : Word) (initCode : ByteArray) : Address :=
  ofWord (Keccak.digest
    (ByteArray.empty.push 0xff ++ creator.toBytes ++ Bytes.ofWord salt.toNat ++
      Bytes.ofWord (Keccak.digest initCode).toNat))

end EvmHarness.Address
