import MoqLiveCast.Lib.Mem
/-!
# PacketKeys — packet protection (`quic_crypto.c`, `quic_pn_decode`)

The ciphers and the key derivation of OpenSSL are parameters; what the code does around them is not.
-/
namespace MoqLiveCast

structure QuicCipherKeys where
  key : List Byte := []
  iv : List Byte := []
  hpKey : List Byte := []
  keyLen : Nat := 0
  suite : Nat := 0
  initialized : Bool := false
deriving DecidableEq

inductive KeyLabel where
  | quicKu | quicKey | quicIv
deriving DecidableEq

/-- What OpenSSL computes: the mask of a sample, the plaintext of a ciphertext with its tag, if the tag is right, and
HKDF-Expand-Label. -/
structure Crypto where
  hpMask : (suite : Nat) → (hpKey sample : List Byte) → List Byte
  aeadOpen : (suite : Nat) → (key nonce aad ct : List Byte) → Option (List Byte)
  hkdfExpandLabel : (suite : Nat) → (secret : List Byte) → KeyLabel → (len : Nat) → Option (List Byte)

section

variable (crypto : Crypto)

/-! ## AEAD -/

def computeNonce (iv : List Byte) (pn : Nat) : List Byte :=
  iv.mapIdx fun i b => if 4 ≤ i ∧ i < 12 then b ^^^ BitVec.ofNat 8 (pn >>> (8 * (11 - i))) else b

def quicCryptoDecrypt (keys : QuicCipherKeys) (pn : Nat) (aad ct : List Byte) : Option (List Byte) :=
  if keys.initialized = false then none
  else if ct.length < 16 then none
  else crypto.aeadOpen keys.suite keys.key (computeNonce keys.iv pn) aad ct

/-! ## Header protection -/

def quicCryptoHpRemoveShort (keys : QuicCipherKeys) (pkt : List Byte) (pnOffset : Nat) : Option (Nat × List Byte) :=
  if keys.initialized = false then none
  else if pkt.length < pnOffset + 4 + 16 then none
  else
    let mask := crypto.hpMask keys.suite keys.hpKey ((pkt.drop (pnOffset + 4)).take 16)
    let first := pkt.headD 0 ^^^ (mask.headD 0 &&& 0x1f)
    let pnLen := (first &&& 0x03).toNat + 1
    some (pnLen, (pkt.set 0 first).mapIdx fun i b =>
      if pnOffset ≤ i ∧ i < pnOffset + pnLen then b ^^^ mask.getD (1 + (i - pnOffset)) 0 else b)

/-! ## Key update -/

def quicCryptoHashLen (suite : Nat) : Nat := if suite = 1 then 48 else 32

def gKeyLen (suite : Nat) : Nat := if suite = 0 then 16 else 32

def overwrite (old new : List Byte) : List Byte := new.take old.length ++ old.drop new.length

/-- `quic_crypto_derive_key_update_aead`: the keys and the secret of the next generation; the header protection key
stays. -/
def quicCryptoDeriveKeyUpdateAead (keys : QuicCipherKeys) (secret : List Byte) : Option (QuicCipherKeys × List Byte) := do
  let updatedSecret ← crypto.hkdfExpandLabel keys.suite secret .quicKu (quicCryptoHashLen keys.suite)
  let key ← crypto.hkdfExpandLabel keys.suite updatedSecret .quicKey (gKeyLen keys.suite)
  let iv ← crypto.hkdfExpandLabel keys.suite updatedSecret .quicIv 12
  some ({ keys with key, iv, keyLen := gKeyLen keys.suite, initialized := true }, updatedSecret)

end

/-! ## Packet numbers -/

/-- `quic_pn_decode`, of fewer than 8 bytes; packet numbers stay below `2^63`. -/
def quicPnDecode (buf : List Byte) (expected : Nat) : Nat :=
  let truncated := buf.foldl (fun n b => n * 256 + b.toNat) 0
  let pnWin := 2 ^ (8 * buf.length)
  let pnHwin := pnWin / 2
  let candidate := expected / pnWin * pnWin + truncated
  if candidate + pnHwin ≤ expected then candidate + pnWin
  else if expected + pnHwin < candidate ∧ pnWin < candidate then candidate - pnWin
  else candidate

end MoqLiveCast
