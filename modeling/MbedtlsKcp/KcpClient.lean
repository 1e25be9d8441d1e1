import MbedtlsKcp.BlockStreams

/-!
# The receive callback of `KcpClient`

`onReceive` collects what comes in and decrypts it in packages of 224 bytes.
A package that does not decrypt is logged and gone; the packages are the same
however the stream is cut into calls.
-/

namespace MbedtlsKcp

namespace KcpClient

open BlockStreams

/-- `FULL_AES_PACKAGE_SIZE`. -/
def fullAesPackageSize : Nat := 56 * 4

def utf8 (text : String) : List UInt8 :=
  text.toUTF8.data.toList

/-- The object, with the packages it has handed to `AesCbcDecryptor.decrypt`
and the lines it has logged, the first ones first. -/
structure Client where
  recvBuffer : List UInt8 := []
  decrypted : List (List UInt8) := []
  log : List String := []

/-- What `AesCbcDecryptor.decrypt` does with a package, a key and an initial
vector at the call of a number: it returns a text or throws. -/
abbrev Decryptor :=
  Nat → List UInt8 → List UInt8 → List UInt8 → Except String String

/-- The line that is logged for a package. -/
def decryptionLine : Except String String → String
  | .ok decrypted => "Decrypted: " ++ decrypted
  | .error _ => "AES decryption error"

/-- The loop of `onReceive`. -/
def decryptLoop (decrypt : Decryptor) (client : Client) : Client :=
  if fullAesPackageSize ≤ client.recvBuffer.length then
    let chunk := client.recvBuffer.take fullAesPackageSize
    let outcome := decrypt client.decrypted.length chunk
      (utf8 "VQikblIrZXQ42Hng") (utf8 "2FfVKcscXpylGLGT")
    decryptLoop decrypt {
      recvBuffer := client.recvBuffer.drop fullAesPackageSize
      decrypted := client.decrypted ++ [chunk]
      log := client.log ++ [decryptionLine outcome] }
  else client
termination_by client.recvBuffer.length
decreasing_by
  simp only [List.length_drop, fullAesPackageSize] at *
  omega

def onReceive (decrypt : Decryptor) (client : Client) (data : List UInt8) :
    Client :=
  let recvBuffer := client.recvBuffer ++ data
  decryptLoop decrypt {
    client with
    recvBuffer
    log := client.log ++ ["Buffer size=" ++ toString recvBuffer.length] }

/-- The client after some calls of `onReceive`. -/
def received (decrypt : Decryptor) (pieces : List (List UInt8)) : Client :=
  pieces.foldl (onReceive decrypt) {}

variable (decrypt : Decryptor)

/-- The loop hands on the blocks of the buffer, whatever is thrown. -/
theorem decryptLoop_eq (client : Client) :
    (decryptLoop decrypt client).decrypted =
        client.decrypted ++ blocks fullAesPackageSize client.recvBuffer ∧
      (decryptLoop decrypt client).recvBuffer =
        leftover fullAesPackageSize client.recvBuffer := by
  have positive : 0 < fullAesPackageSize := by decide
  fun_induction decryptLoop decrypt client with
  | case1 client long chunk outcome ih =>
      rw [blocks_of_long positive long, leftover_of_long positive long]
      refine ⟨ih.1.trans ?_, ih.2⟩
      rw [List.append_assoc]
      rfl
  | case2 client short =>
      have small := Nat.not_le.1 short
      rw [blocks_of_short small, leftover_of_short small, List.append_nil]
      exact ⟨rfl, rfl⟩

theorem onReceive_eq (client : Client) (data : List UInt8) :
    (onReceive decrypt client data).decrypted = client.decrypted ++
        blocks fullAesPackageSize (client.recvBuffer ++ data) ∧
      (onReceive decrypt client data).recvBuffer =
        leftover fullAesPackageSize (client.recvBuffer ++ data) :=
  decryptLoop_eq decrypt _

/-- What the calls so far have made of a stream is what the next one starts
from. -/
theorem received_eq (pieces : List (List UInt8)) (client : Client)
    (stream : List UInt8)
    (blocked : client.decrypted = blocks fullAesPackageSize stream)
    (left : client.recvBuffer = leftover fullAesPackageSize stream) :
    (pieces.foldl (onReceive decrypt) client).decrypted =
        blocks fullAesPackageSize (stream ++ pieces.flatten) ∧
      (pieces.foldl (onReceive decrypt) client).recvBuffer =
        leftover fullAesPackageSize (stream ++ pieces.flatten) := by
  have positive : 0 < fullAesPackageSize := by decide
  induction pieces generalizing client stream with
  | nil => simpa using ⟨blocked, left⟩
  | cons piece pieces ih =>
      obtain ⟨cut, rest⟩ := onReceive_eq decrypt client piece
      obtain ⟨cutWhole, restWhole⟩ := blocks_append positive stream piece
      rw [List.flatten_cons, ← List.append_assoc]
      refine ih _ (stream ++ piece) ?_ ?_
      · rw [cut, blocked, left, cutWhole]
      · rw [rest, left, restWhole]

/-- The packages are the blocks of the stream, and the buffer holds what is
left of it. -/
theorem received_blocks (pieces : List (List UInt8)) :
    (received decrypt pieces).decrypted =
        blocks fullAesPackageSize pieces.flatten ∧
      (received decrypt pieces).recvBuffer =
        leftover fullAesPackageSize pieces.flatten ∧
      (received decrypt pieces).recvBuffer.length < fullAesPackageSize := by
  have positive : 0 < fullAesPackageSize := by decide
  obtain ⟨cut, rest⟩ := received_eq decrypt pieces {} [] rfl rfl
  refine ⟨cut, rest, ?_⟩
  rw [received, rest]
  exact length_leftover_lt positive _

end KcpClient

end MbedtlsKcp
