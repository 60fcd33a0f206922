import SorobanDevkit.Library.Base32
import SorobanDevkit.Library.Bytes
import SorobanDevkit.Xdr.Transaction

/-!
# The texts of keys

The crate `stellar-strkey` writes a key as the text, in base 32, of a byte for its kind, the key,
and a checksum of both. This is one model of it, for the ids of contracts and public keys.

## Main definitions

* `crc16`, `strkeyText`, `parseStrkey`.

## Main results

* `parseStrkey_strkeyText` — the text of the id of a contract is read back.
-/

namespace SorobanDevkit.Xdr

/-- The checksum goes on with a byte. -/
def crc16Byte (crc : UInt16) (b : UInt8) : UInt16 :=
  (List.range 8).foldl
    (fun c _ => if c &&& 0x8000 = 0 then c <<< 1 else (c <<< 1) ^^^ 0x1021)
    (crc ^^^ (b.toUInt16 <<< 8))

/-- The checksum CRC16-XModem, with the lower byte first. -/
def crc16 (bytes : List UInt8) : List UInt8 :=
  littleEndian 2 (bytes.foldl crc16Byte 0).toNat

/-- The text of a key of a kind. -/
def strkeyText (kind : UInt8) (key : List UInt8) : String :=
  String.ofList (Base32.encodeNumber 56 (ofBigEndian (kind :: key ++ crc16 (kind :: key))))

/-- `Strkey::from_string`. -/
def parseStrkey (text : String) : Except String Strkey :=
  if text.toList.length ≠ 56 then .error "the strkey is invalid"
  else
    match Base32.decodeNumber text.toList with
    | none => .error "the strkey is invalid"
    | some n =>
      let data := (bigEndian 35 n).take 33
      if bigEndian 35 n = data ++ crc16 data then
        match data with
        | [] => .error "the strkey is invalid"
        | kind :: key =>
          if h : key.length = 32 then
            if kind = 16 then .ok (.contract ⟨key.toArray, h⟩)
            else if kind = 48 then .ok (.publicKeyEd25519 ⟨key.toArray, h⟩)
            else .ok (.other key)
          else .error "the strkey is invalid"
      else .error "the strkey is invalid"

/-- **The text of the id of a contract is read back.** -/
theorem parseStrkey_strkeyText (id : Bytes32) :
    parseStrkey (strkeyText 16 id.toList) = .ok (.contract id) := by
  have hid : id.toList.length = 32 := Vector.length_toList
  have hcrc : (crc16 (16 :: id.toList)).length = 2 := length_littleEndian 2 _
  have hlength : (16 :: id.toList ++ crc16 (16 :: id.toList)).length = 35 := by
    rw [List.length_append, List.length_cons, hid, hcrc]
  have hlt : ofBigEndian (16 :: id.toList ++ crc16 (16 :: id.toList)) < 32 ^ 56 := by
    have hbytes := ofBigEndian_lt (16 :: id.toList ++ crc16 (16 :: id.toList))
    rw [hlength] at hbytes
    exact hbytes.trans_eq (by decide)
  have hbytes := bigEndian_ofBigEndian (16 :: id.toList ++ crc16 (16 :: id.toList))
  rw [hlength] at hbytes
  have htake : (16 :: id.toList ++ crc16 (16 :: id.toList)).take 33 = 16 :: id.toList :=
    List.take_left' (by rw [List.length_cons, hid])
  have hvector : (⟨id.toList.toArray, hid⟩ : Bytes32) = id := by
    rw [← Vector.toArray_inj]
    exact Array.toArray_toList
  have hwidth : ¬ (Base32.encodeNumber 56
      (ofBigEndian (16 :: id.toList ++ crc16 (16 :: id.toList)))).length ≠ 56 :=
    not_not.mpr (Base32.length_encodeNumber 56 _)
  rw [parseStrkey, strkeyText, String.toList_ofList, if_neg hwidth,
    Base32.decodeNumber_encodeNumber hlt]
  dsimp only
  rw [hbytes, htake, if_pos rfl]
  dsimp only
  rw [dif_pos hid, if_pos rfl, hvector]

theorem trim_strkeyText (kind : UInt8) (key : List UInt8) :
    Strings.trim (strkeyText kind key) = strkeyText kind key := by
  refine Strings.trim_eq_self ?_
  rw [strkeyText, String.toList_ofList]
  exact Base32.isWhitespace_encodeNumber

end SorobanDevkit.Xdr
