import MbedtlsKcp.HexScanning
import MbedtlsKcp.RepeaterAes

/-!
# MAC addresses as strings

`mat2str` and `mat2str_raw` print an address with and without colons.
`str2mac` tries to scan both forms; its first format has no field widths and
nothing looks at what stands behind the last group.
-/

namespace MbedtlsKcp

namespace RepeaterAes

open AesWrapper HexScanning

/-- `%02hhX`. -/
def hexPair (byte : UInt8) : List UInt8 :=
  [hexDigit (byte / 16), hexDigit (byte % 16)]

/-- Printed bytes with colons between them. -/
def colonGroups : List UInt8 → List UInt8
  | [] => []
  | [byte] => hexPair byte
  | byte :: next :: rest => hexPair byte ++ colon :: colonGroups (next :: rest)

def mat2str (mac : Mac) : List UInt8 :=
  colonGroups mac.toList

def mat2strRaw (mac : Mac) : List UInt8 :=
  mac.toList.flatMap hexPair

/-- `%hhX:%hhX:%hhX:%hhX:%hhX:%hhX`. -/
def colonFormat : List Directive :=
  [.hexByte none, .literal colon, .hexByte none, .literal colon,
    .hexByte none, .literal colon, .hexByte none, .literal colon,
    .hexByte none, .literal colon, .hexByte none]

/-- `%2hhX%2hhX%2hhX%2hhX%2hhX%2hhX`. -/
def rawFormat : List Directive :=
  List.replicate 6 (.hexByte (some 2))

/-- The array after `sscanf` has stored some bytes at its start. -/
def assign (mac : Mac) (values : List UInt8) : Mac :=
  Vector.ofFn fun i => (values[i.val]?).getD mac[i]

/-- `str2mac` for an array of six bytes: the return code and the array
afterwards.  A string is the bytes in front of its NUL. -/
def str2mac (macStr : Option (List UInt8)) (mac : Mac) : Int × Mac :=
  match macStr with
  | none => (-1, mac)
  | some macStr =>
      let values := sscanf colonFormat macStr
      let mac := assign mac values
      if values.length ≠ 6 then
        if macStr.length ≠ 12 then (-1, mac)
        else
          let values := sscanf rawFormat macStr
          let mac := assign mac values
          if values.length ≠ 6 then (-1, mac) else (0, mac)
      else (0, mac)

/-- The string is the address as one of the two functions prints it, up to
letter case. -/
def Spells (macStr : List UInt8) (mac : Mac) : Prop :=
  lowerCase macStr = lowerCase (mat2str mac) ∨
    lowerCase macStr = lowerCase (mat2strRaw mac)

instance (macStr : List UInt8) (mac : Mac) : Decidable (Spells macStr mac) :=
  inferInstanceAs (Decidable (_ ∨ _))

/-- `str2mac` takes printed addresses and leaves the array as it is for
everything else. -/
def Str2macExact (macStr : List UInt8) (mac : Mac) : Prop :=
  (∀ parsed, str2mac (some macStr) mac = (0, parsed) ↔
      Spells macStr parsed) ∧
    ((∀ parsed, ¬ Spells macStr parsed) →
      str2mac (some macStr) mac = (-1, mac))

/-- The byte that the two scans leave at position `i`, if one of them gets
there. -/
def lastStored (macStr : List UInt8) (i : Nat) : Option UInt8 :=
  (if macStr.length = 12 then (sscanf rawFormat macStr)[i]? else none).or
    (sscanf colonFormat macStr)[i]?

/-- Neither format finds six groups in the string, and the groups it begins
with are in the array already. -/
def RejectsCleanly (macStr : List UInt8) (mac : Mac) : Prop :=
  (sscanf colonFormat macStr).length < 6 ∧
    (macStr.length = 12 → (sscanf rawFormat macStr).length < 6) ∧
    ∀ i : Fin 6, ∀ value, lastStored macStr i = some value → mac[i] = value

section Printed

variable {macStr : List UInt8} {mac : Mac}

theorem hexValue_hexDigit {value : UInt8} (small : value.toNat < 16) :
    hexValue (hexDigit value) = some value.toNat := by
  unfold hexDigit
  split_ifs with decimal
  · simp only [UInt8.lt_iff_toNat_lt, UInt8.reduceToNat] at decimal
    have digit : (48 + value).toNat = 48 + value.toNat := by
      simp only [UInt8.toNat_add, UInt8.reduceToNat]
      omega
    simp only [hexValue, UInt8.le_iff_toNat_le, UInt8.reduceToNat, digit]
    rw [if_pos (by omega), Nat.add_sub_cancel_left]
  · simp only [UInt8.lt_iff_toNat_lt, UInt8.reduceToNat] at decimal
    have digit : (55 + value).toNat = 55 + value.toNat := by
      simp only [UInt8.toNat_add, UInt8.reduceToNat]
      omega
    simp only [hexValue, UInt8.le_iff_toNat_le, UInt8.reduceToNat, digit]
    rw [if_neg (by omega), if_pos (by omega), Nat.add_sub_cancel_left]

/-- A byte that is the digit of a value up to letter case. -/
theorem hexValue_of_lowerByte {byte value : UInt8} (small : value.toNat < 16)
    (same : lowerByte byte = lowerByte (hexDigit value)) :
    hexValue byte = some value.toNat := by
  rw [← hexValue_lowerByte, same, hexValue_lowerByte, hexValue_hexDigit small]

/-- Two bytes that spell a byte up to letter case, and what follows them. -/
theorem pair_of_lowerCase {text tail : List UInt8} {byte : UInt8}
    (same : lowerCase text = lowerCase (hexPair byte ++ tail)) :
    ∃ first second rest, text = first :: second :: rest ∧
      hexValue first = some (byte / 16).toNat ∧
      hexValue second = some (byte % 16).toNat ∧
      lowerCase rest = lowerCase tail := by
  have bounded := byte.toNat_lt
  cases text with
  | nil => cases same
  | cons first rest =>
      obtain ⟨highSame, more⟩ := List.cons.inj same
      cases rest with
      | nil => cases more
      | cons second rest =>
          obtain ⟨lowSame, tailSame⟩ := List.cons.inj more
          refine ⟨first, second, rest, rfl, hexValue_of_lowerByte ?_ highSame,
            hexValue_of_lowerByte ?_ lowSame, tailSame⟩
          · simp only [UInt8.toNat_div, UInt8.reduceToNat]
            omega
          · simp only [UInt8.toNat_mod, UInt8.reduceToNat]
            omega

/-- The two digits of a byte give it back. -/
theorem ofNat_halves (byte : UInt8) :
    UInt8.ofNat (16 * (byte / 16).toNat + (byte % 16).toNat) = byte := by
  simp only [UInt8.toNat_div, UInt8.toNat_mod, UInt8.reduceToNat,
    Nat.div_add_mod, UInt8.ofNat_toNat]

/-- The format without colons reads printed bytes back. -/
theorem sscanf_rawFormat {text bytes : List UInt8}
    (same : lowerCase text = lowerCase (bytes.flatMap hexPair)) :
    sscanf (List.replicate bytes.length (.hexByte (some 2))) text = bytes := by
  induction bytes generalizing text with
  | nil => rfl
  | cons byte bytes ih =>
      obtain ⟨first, second, rest, rfl, highDigit, lowDigit, tailSame⟩ :=
        pair_of_lowerCase same
      rw [List.length_cons, List.replicate_succ, sscanf,
        scanHex_pair highDigit lowDigit (.inl rfl)]
      simp only [ofNat_halves, ih tailSame]

/-- The format of some groups with colons between them. -/
def groupsFormat : Nat → List Directive
  | 0 => []
  | 1 => [.hexByte none]
  | count + 2 =>
      .hexByte none :: .literal colon :: groupsFormat (count + 1)

/-- The format with colons reads printed bytes back. -/
theorem sscanf_groupsFormat {text bytes : List UInt8}
    (same : lowerCase text = lowerCase (colonGroups bytes)) :
    sscanf (groupsFormat bytes.length) text = bytes := by
  induction bytes generalizing text with
  | nil => rfl
  | cons byte bytes ih =>
      cases bytes with
      | nil =>
          rw [colonGroups, ← List.append_nil (hexPair byte)] at same
          obtain ⟨first, second, rest, rfl, highDigit, lowDigit, tailSame⟩ :=
            pair_of_lowerCase same
          obtain rfl : rest = [] := List.map_eq_nil_iff.mp tailSame
          change sscanf [.hexByte none] _ = _
          rw [sscanf, scanHex_pair highDigit lowDigit (.inr ⟨rfl, by simp⟩)]
          simp only [ofNat_halves, sscanf]
      | cons next bytes =>
          rw [colonGroups] at same
          obtain ⟨first, second, rest, rfl, highDigit, lowDigit, tailSame⟩ :=
            pair_of_lowerCase same
          cases rest with
          | nil => cases tailSame
          | cons separator rest =>
              obtain ⟨colonSame, more⟩ := List.cons.inj tailSame
              obtain rfl : separator = colon :=
                eq_of_lowerByte_eq colonSame (by decide)
              change sscanf (.hexByte none :: .literal colon ::
                groupsFormat (next :: bytes).length) _ = _
              have stops : ∀ other ∈ (colon :: rest).head?,
                  hexValue other = none := by
                simp only [List.head?_cons, Option.mem_some_iff, forall_eq']
                decide
              rw [sscanf, scanHex_pair highDigit lowDigit (.inr ⟨rfl, stops⟩)]
              simp only [ofNat_halves, sscanf, if_true, ih more]

/-- Without colons the first format takes all digits for its first group. -/
theorem length_sscanf_colonFormat_raw {bytes : List UInt8}
    (nonempty : bytes ≠ [])
    (same : lowerCase macStr = lowerCase (bytes.flatMap hexPair)) :
    (sscanf colonFormat macStr).length = 1 := by
  have digits : ∀ {bytes text : List UInt8},
      lowerCase text = lowerCase (bytes.flatMap hexPair) →
        (∀ byte ∈ text, (hexValue byte).isSome) ∧
          text.length = 2 * bytes.length := by
    intro bytes
    induction bytes with
    | nil =>
        intro text same
        obtain rfl : text = [] := List.map_eq_nil_iff.mp same
        simp
    | cons byte bytes ih =>
        intro text same
        obtain ⟨first, second, rest, rfl, highDigit, lowDigit, tailSame⟩ :=
          pair_of_lowerCase same
        obtain ⟨all, length⟩ := ih tailSame
        refine ⟨?_, ?_⟩
        · simp [highDigit, lowDigit]
          exact all
        · simp only [List.length_cons, length]
          omega
  obtain ⟨all, length⟩ := digits same
  have field : macStr.take ((none : Option Nat).getD macStr.length) =
      macStr ++ [] := by
    simp
  have positive := List.length_pos_iff.mpr nonempty
  rw [colonFormat, sscanf, scanHex_eq field (by omega) all (by simp)]
  simp only [List.drop_length, sscanf, List.length_cons, List.length_nil]

theorem sscanf_of_mat2str (same : lowerCase macStr = lowerCase (mat2str mac)) :
    sscanf colonFormat macStr = mac.toList := by
  have reads := sscanf_groupsFormat same
  rw [Vector.length_toList] at reads
  exact reads

theorem sscanf_of_mat2strRaw
    (same : lowerCase macStr = lowerCase (mat2strRaw mac)) :
    sscanf rawFormat macStr = mac.toList := by
  have reads := sscanf_rawFormat same
  rw [Vector.length_toList] at reads
  exact reads

theorem assign_toList (mac parsed : Mac) :
    assign mac parsed.toList = parsed := by
  ext i inside
  simp [assign]

/-- A printed address is parsed. -/
theorem str2mac_of_spells {parsed : Mac} (spells : Spells macStr parsed) :
    str2mac (some macStr) mac = (0, parsed) := by
  rcases spells with same | same
  · rw [str2mac, sscanf_of_mat2str same]
    simp only [Vector.length_toList, ne_eq, not_true_eq_false, if_false,
      assign_toList]
  · have first := length_sscanf_colonFormat_raw (by
      intro empty
      have := congrArg List.length empty
      rw [Vector.length_toList] at this
      cases this) same
    have length : macStr.length = 12 := by
      have lengths := congrArg List.length same
      simpa [lowerCase, mat2strRaw, hexPair] using lengths
    rw [str2mac]
    simp only [first, length, sscanf_of_mat2strRaw same, assign_toList,
      Vector.length_toList]
    rfl

/-- An array that stays as it is holds what is stored in it. -/
theorem ofFn_getD_eq_self_iff {stored : Nat → Option UInt8} :
    (Vector.ofFn fun i : Fin 6 => (stored i.val).getD mac[i]) = mac ↔
      ∀ i : Fin 6, ∀ value, stored i.val = some value → mac[i] = value := by
  constructor
  · intro same i value isStored
    have at_ := congrArg (fun array : Mac => array[i]) same
    simp only [Fin.getElem_fin, Vector.getElem_ofFn, isStored,
      Option.getD_some] at at_
    exact at_.symm
  · intro same
    apply Vector.ext
    intro i inside
    rw [Vector.getElem_ofFn]
    cases isStored : stored i with
    | none => rfl
    | some value => exact (same ⟨i, inside⟩ value isStored).symm

/-- What a rejected string leaves in the array. -/
theorem str2mac_of_rejected
    (noColons : (sscanf colonFormat macStr).length < 6)
    (notRaw : macStr.length = 12 → (sscanf rawFormat macStr).length < 6) :
    str2mac (some macStr) mac =
      (-1, Vector.ofFn fun i : Fin 6 =>
        (lastStored macStr i.val).getD mac[i]) := by
  rw [str2mac]
  by_cases length : macStr.length = 12
  · have short := notRaw length
    simp only [length, ne_eq, noColons.ne, short.ne, not_false_eq_true,
      not_true_eq_false, if_true, if_false, Prod.mk.injEq, true_and]
    apply Vector.ext
    intro i inside
    simp only [assign, Vector.getElem_ofFn, lastStored, length, if_true,
      Fin.getElem_fin]
    cases (sscanf rawFormat macStr)[i]? with
    | none => rfl
    | some value => rfl
  · simp only [length, ne_eq, noColons.ne, not_false_eq_true, if_true,
      Prod.mk.injEq, true_and, lastStored, if_false, Option.none_or]
    rfl

/-- A string that is not printed is rejected without a trace exactly if it is
rejected cleanly. -/
theorem str2mac_eq_unchanged_iff :
    str2mac (some macStr) mac = (-1, mac) ↔ RejectsCleanly macStr mac := by
  have colonsMost := length_sscanf_le colonFormat macStr
  have rawMost := length_sscanf_le rawFormat macStr
  rw [show conversions colonFormat = 6 from rfl] at colonsMost
  rw [show conversions rawFormat = 6 from rfl] at rawMost
  by_cases colons : (sscanf colonFormat macStr).length = 6
  · refine iff_of_false ?_ fun rejects => absurd colons rejects.1.ne
    rw [str2mac]
    simp [colons]
  by_cases raw : macStr.length = 12 ∧ (sscanf rawFormat macStr).length = 6
  · refine iff_of_false ?_ fun rejects =>
      absurd raw.2 (rejects.2.1 raw.1).ne
    rw [str2mac]
    simp [colons, raw.1, raw.2]
  have noColons : (sscanf colonFormat macStr).length < 6 := by omega
  have notRaw : macStr.length = 12 →
      (sscanf rawFormat macStr).length < 6 := by
    intro length
    by_contra long
    exact raw ⟨length, by omega⟩
  rw [str2mac_of_rejected noColons notRaw, Prod.mk.injEq,
    ofFn_getD_eq_self_iff]
  exact ⟨fun kept => ⟨noColons, notRaw, kept.2⟩,
    fun rejects => ⟨rfl, rejects.2.2⟩⟩

end Printed

end RepeaterAes

end MbedtlsKcp
