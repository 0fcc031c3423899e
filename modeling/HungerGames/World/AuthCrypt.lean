/-
# The cipher of the headers (`AuthCrypt.cpp`)

Both directions are stream ciphers: each byte is combined with the next byte of a key stream.
Which key stream a session key gives is the business of the library that implements the cipher,
and so is a parameter.  Until `Init` is called the headers travel as they are.
-/
import HungerGames.Lua.Text

namespace HungerGames.World

open HungerGames.Lua (Bytes)

/-- The states of the two ciphers. -/
structure AuthCrypt (κ : Type) where
  clientDecrypt : κ
  serverEncrypt : κ
deriving DecidableEq

/-- The key streams. -/
structure Cipher (κ : Type) where
  /-- `Init(K)`: both ciphers keyed, their first 1024 bytes dropped -/
  init : ℕ → AuthCrypt κ
  next : κ → UInt8 × κ

section

variable {κ : Type} (cipher : Cipher κ)

/-- `UpdateData` -/
def Cipher.updateData : κ → Bytes → Bytes × κ
  | k, [] => ([], k)
  | k, b :: data =>
    let rest := Cipher.updateData (cipher.next k).2 data
    ((b ^^^ (cipher.next k).1) :: rest.1, rest.2)

/-- `DecryptRecv` -/
def decryptRecv : Option (AuthCrypt κ) → Bytes → Bytes × Option (AuthCrypt κ)
  | none, data => (data, none)
  | some crypt, data =>
    let r := cipher.updateData crypt.clientDecrypt data
    (r.1, some { crypt with clientDecrypt := r.2 })

/-- `EncryptSend` -/
def encryptSend : Option (AuthCrypt κ) → Bytes → Bytes × Option (AuthCrypt κ)
  | none, data => (data, none)
  | some crypt, data =>
    let r := cipher.updateData crypt.serverEncrypt data
    (r.1, some { crypt with serverEncrypt := r.2 })

variable {cipher}

@[simp] theorem length_updateData : ∀ (k : κ) (data : Bytes),
    (cipher.updateData k data).1.length = data.length
  | _, [] => rfl
  | k, _ :: data => congrArg (· + 1) (length_updateData (cipher.next k).2 data)

@[simp] theorem length_decryptRecv (crypt : Option (AuthCrypt κ)) (data : Bytes) :
    (decryptRecv cipher crypt data).1.length = data.length := by
  cases crypt with
  | none => rfl
  | some crypt => exact length_updateData crypt.clientDecrypt data

@[simp] theorem length_encryptSend (crypt : Option (AuthCrypt κ)) (data : Bytes) :
    (encryptSend cipher crypt data).1.length = data.length := by
  cases crypt with
  | none => rfl
  | some crypt => exact length_updateData crypt.serverEncrypt data

end

/-- The cipher whose key streams are `0`, for runs on concrete inputs. -/
def Cipher.plain : Cipher Unit := ⟨fun _ => ⟨(), ()⟩, fun _ => (0, ())⟩

end HungerGames.World
