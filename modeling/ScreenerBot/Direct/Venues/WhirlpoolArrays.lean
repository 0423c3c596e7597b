import ScreenerBot.Direct.Venues.ClmmTicks
import ScreenerBot.Library.ByteFields

/-!
The two layouts of an Orca tick array: the fixed one, and the dynamic one that spends a tag byte on
every slot and the tick's data on the initialised ones only.

The index of a tick is not stored. It is computed in 32-bit words that are not checked for overflow.
-/
namespace ScreenerBot.Direct.Venues.Whirlpool
open ScreenerBot.Library

def tickArraySize : ℕ := 88

def ticksOffset : ℕ := 12

def tickStateSize : ℕ := 113

def fixedTickArrayLen : ℕ := ticksOffset + tickArraySize * tickStateSize + 32

def dynamicTickBitmapOffset : ℕ := 44

def dynamicTicksOffset : ℕ := 60

def dynamicTickDataSize : ℕ := 112

def i32At (data : List UInt8) (offset : ℕ) : Option ℤ :=
  (fieldAt 4 data offset).map fun value : ℕ => wrapSigned 32 value

def i128At (data : List UInt8) (offset : ℕ) : Option ℤ :=
  (fieldAt 16 data offset).map fun value : ℕ => wrapSigned 128 value

def u128At : List UInt8 → ℕ → Option ℕ := fieldAt 16

/-- The index of a slot's tick. -/
def tickAt (start : ℤ) (tickSpacing : UInt16) (i : ℕ) : ℤ :=
  i32 (start + i32 (i * tickSpacing.toNat))

/-- One slot of a dynamic array, read at `offset`. -/
def dynamicSlot (data : List UInt8) (bitmap : ℕ) (start : ℤ) (tickSpacing : UInt16)
    (s : ℕ × List InitializedTick) (i : ℕ) : Option (ℕ × List InitializedTick) :=
  let (offset, ticks) := s
  match data[offset]? with
  | none => none
  | some tag =>
    if tag = 0 ∧ bitmap.testBit i = false then some (offset + 1, ticks)
    else if tag = 1 ∧ bitmap.testBit i = true then
      match i128At data (offset + 1), u128At data (offset + 1 + 16) with
      | some liquidityNet, some liquidityGross =>
        if liquidityGross < liquidityNet.natAbs then none
        else some (offset + 1 + dynamicTickDataSize,
          ticks ++ [⟨tickAt start tickSpacing i, liquidityNet⟩])
      | _, _ => none
    else none

def decodeDynamicTickArray (data : List UInt8) (start : ℤ) (tickSpacing : UInt16) :
    Option (List InitializedTick) :=
  if i32At data 8 ≠ some start then none
  else
    match u128At data dynamicTickBitmapOffset with
    | none => none
    | some bitmap =>
      match (List.range' 0 tickArraySize).foldlM (dynamicSlot data bitmap start tickSpacing)
        (dynamicTicksOffset, []) with
      | none => none
      | some (offset, ticks) => if offset = data.length then some ticks else none

/-- One slot of a fixed array. -/
def fixedSlot (data : List UInt8) (start : ℤ) (tickSpacing : UInt16)
    (ticks : List InitializedTick) (i : ℕ) : Option (List InitializedTick) :=
  let offset := ticksOffset + i * tickStateSize
  match data[offset]? with
  | none => none
  | some initialized =>
    if initialized = 0 then some ticks
    else (i128At data (offset + 1)).map fun liquidityNet =>
      ticks ++ [⟨tickAt start tickSpacing i, liquidityNet⟩]

def decodeFixedTickArray (data : List UInt8) (start : ℤ) (tickSpacing : UInt16) :
    Option (List InitializedTick) :=
  (List.range' 0 tickArraySize).foldlM (fixedSlot data start tickSpacing) []

def decodeTickArray (data : List UInt8) (start : ℤ) (tickSpacing : UInt16) :
    Option (List InitializedTick) :=
  if data.length = fixedTickArrayLen then decodeFixedTickArray data start tickSpacing
  else decodeDynamicTickArray data start tickSpacing

/-- The data of an initialised tick: the fees and rewards that follow are bytes to a swap. -/
structure DynamicTickData where
  liquidityNet : ℤ
  liquidityGross : ℕ
  growths : List UInt8
  net_low : -2 ^ 127 ≤ liquidityNet
  net_high : liquidityNet < 2 ^ 127
  gross_high : liquidityGross < 2 ^ 128
  covered : liquidityNet.natAbs ≤ liquidityGross
  growths_length : growths.length = 80

/-- The tags of the slots from the `i`th on, as the bitmap has them. -/
def Flagged (bitmap : ℕ) : ℕ → List (Option DynamicTickData) → Prop
  | _, [] => True
  | i, slot :: slots => bitmap.testBit i = slot.isSome ∧ Flagged bitmap (i + 1) slots

/-- A dynamic tick array. The bits of the bitmap beyond its slots are free. -/
structure DynamicTickArray where
  discriminator : List UInt8
  start : ℤ
  whirlpool : List UInt8
  bitmap : ℕ
  slots : List (Option DynamicTickData)
  discriminator_length : discriminator.length = 8
  start_low : -2 ^ 31 ≤ start
  start_high : start < 2 ^ 31
  whirlpool_length : whirlpool.length = 32
  bitmap_high : bitmap < 2 ^ 128
  slots_length : slots.length = tickArraySize
  flagged : Flagged bitmap 0 slots

def encodeSlot : Option DynamicTickData → List UInt8
  | none => [0]
  | some tick => 1 :: (bytesOf 16 (twosComplement 128 tick.liquidityNet) ++
      (bytesOf 16 tick.liquidityGross ++ tick.growths))

def DynamicTickArray.header (array : DynamicTickArray) : List UInt8 :=
  array.discriminator ++ (bytesOf 4 (twosComplement 32 array.start) ++
    (array.whirlpool ++ bytesOf 16 array.bitmap))

def DynamicTickArray.encode (array : DynamicTickArray) : List UInt8 :=
  array.header ++ array.slots.flatMap encodeSlot

/-- The initialised ticks of the slots from the `i`th on. -/
def slotTicks (start : ℤ) (tickSpacing : UInt16) : ℕ → List (Option DynamicTickData) →
    List InitializedTick
  | _, [] => []
  | i, none :: slots => slotTicks start tickSpacing (i + 1) slots
  | i, some tick :: slots =>
    ⟨tickAt start tickSpacing i, tick.liquidityNet⟩ :: slotTicks start tickSpacing (i + 1) slots

def DynamicTickArray.initialisedTicks (array : DynamicTickArray) (tickSpacing : UInt16) :
    List InitializedTick :=
  slotTicks array.start tickSpacing 0 array.slots

section Slots
variable {data : List UInt8} {bitmap : ℕ} {start : ℤ} {tickSpacing : UInt16} {offset i : ℕ}
  {ticks : List InitializedTick}

theorem drop_of_getElem? {tag : UInt8} (h : data[offset]? = some tag) :
    data.drop offset = tag :: data.drop (offset + 1) := by
  obtain ⟨hlt, rfl⟩ := List.getElem?_eq_some_iff.mp h
  exact List.drop_eq_getElem_cons hlt

theorem getElem?_of_drop {tag : UInt8} {rest : List UInt8} (h : data.drop offset = tag :: rest) :
    data[offset]? = some tag ∧ data.drop (offset + 1) = rest := by
  constructor
  · have := @List.getElem?_drop _ data offset 0
    rw [h] at this
    simpa using this.symm
  · rw [← List.drop_drop, h]
    rfl

@[simp] theorem encodeSlot_length (slot : Option DynamicTickData) :
    (encodeSlot slot).length = if slot.isSome then 113 else 1 := by
  cases slot with
  | none => rfl
  | some tick => simp [encodeSlot, tick.growths_length]

/-- What a slot is read as, the account going on at least as far, is what it encodes. -/
theorem dynamicSlot_sound {offset' : ℕ} {ticks' : List InitializedTick}
    (h : dynamicSlot data bitmap start tickSpacing (offset, ticks) i = some (offset', ticks'))
    (hend : offset' ≤ data.length) :
    ∃ slot, bitmap.testBit i = slot.isSome ∧
      data.drop offset = encodeSlot slot ++ data.drop offset' ∧
      ticks' = ticks ++ slotTicks start tickSpacing i [slot] := by
  unfold dynamicSlot at h
  cases htag : data[offset]? with
  | none => simp [htag] at h
  | some tag =>
    have hdrop := drop_of_getElem? htag
    simp only [htag] at h
    split at h
    · rename_i hempty
      obtain ⟨rfl, rfl⟩ := Prod.mk.inj (Option.some.inj h)
      refine ⟨none, by simpa using hempty.2, ?_, by simp [slotTicks]⟩
      rw [hdrop, hempty.1]
      rfl
    · split at h
      · rename_i hfull
        cases hnet : fieldAt 16 data (offset + 1) with
        | none => simp [i128At, hnet] at h
        | some net =>
          cases hgross : fieldAt 16 data (offset + 1 + 16) with
          | none => simp [i128At, u128At, hgross] at h
          | some gross =>
            have hsigned : i128At data (offset + 1) = some (wrapSigned 128 net) := by
              simp [i128At, hnet]
            have hunsigned : u128At data (offset + 1 + 16) = some gross := hgross
            rw [hsigned, hunsigned] at h
            dsimp only at h
            split at h
            · cases h
            · rename_i hcovered
              obtain ⟨rfl, rfl⟩ := Prod.mk.inj (Option.some.inj h)
              simp only [dynamicTickDataSize] at hend ⊢
              obtain ⟨hnetBytes, hnetHigh⟩ := written_of_fieldAt hnet
              obtain ⟨hgrossBytes, hgrossHigh⟩ := written_of_fieldAt hgross
              have hbounds : -2 ^ 127 ≤ wrapSigned 128 net ∧ wrapSigned 128 net < 2 ^ 127 :=
                wrapSigned_bounds 127 net
              have hback : twosComplement 128 (wrapSigned 128 net) = net :=
                twosComplement_wrapSigned (hnetHigh.trans_eq (by norm_num))
              generalize wrapSigned 128 (net : ℤ) = signed at hbounds hback hcovered
              have hlength : ((data.drop (offset + 1 + 32)).take 80).length = 80 := by
                rw [List.length_take, List.length_drop]
                omega
              refine ⟨some ⟨signed, gross, _, hbounds.1, hbounds.2,
                hgrossHigh.trans_eq (by norm_num),
                not_lt.mp hcovered, hlength⟩, by
                  simpa using hfull.2, ?_, by rw [slotTicks, slotTicks]⟩
              rw [hdrop, hfull.1, encodeSlot, hback, hnetBytes, hgrossBytes, List.cons_append,
                List.append_assoc, List.append_assoc,
                show offset + 1 + 112 = offset + 1 + 32 + 80 by omega,
                ← List.drop_drop (i := 80) (j := offset + 1 + 32), List.take_append_drop,
                show offset + 1 + 32 = offset + 1 + 16 + 16 by omega,
                ← List.drop_drop (i := 16) (j := offset + 1 + 16), List.take_append_drop,
                ← List.drop_drop (i := 16) (j := offset + 1), List.take_append_drop]
      · cases h

/-- An encoded slot is read as it is. -/
theorem dynamicSlot_complete {slot : Option DynamicTickData} {rest : List UInt8}
    (hflag : bitmap.testBit i = slot.isSome)
    (hdrop : data.drop offset = encodeSlot slot ++ rest) :
    dynamicSlot data bitmap start tickSpacing (offset, ticks) i =
      some (offset + (encodeSlot slot).length, ticks ++ slotTicks start tickSpacing i [slot]) := by
  unfold dynamicSlot
  cases slot with
  | none =>
    obtain ⟨htag, -⟩ := getElem?_of_drop hdrop
    simp [htag, slotTicks, show bitmap.testBit i = false from hflag]
  | some tick =>
    rw [encodeSlot, List.cons_append, List.append_assoc, List.append_assoc] at hdrop
    obtain ⟨htag, hnext⟩ := getElem?_of_drop hdrop
    have hlt : offset < data.length := (List.getElem?_eq_some_iff.mp htag).1
    have hnet := fieldAt_of_drop hlt hnext (bytesOf_length _ _)
    have hnext' : data.drop (offset + 1 + 16) =
        bytesOf 16 tick.liquidityGross ++ (tick.growths ++ rest) := by
      rw [← List.drop_drop, hnext, List.drop_left' (bytesOf_length _ _)]
    have hle' : offset + 1 + 16 ≤ data.length := by
      have := (fieldAt_eq_some.mp hnet).1
      omega
    have hgross : u128At data (offset + 1 + 16) = some tick.liquidityGross := by
      have hfield := fieldAt_of_drop hle' hnext' (bytesOf_length _ _)
      rwa [valueOf_written (tick.gross_high.trans_eq (by norm_num))] at hfield
    have hsigned : i128At data (offset + 1) = some tick.liquidityNet := by
      have hback := wrapSigned_twosComplement 127 tick.net_low tick.net_high
      rw [i128At, hnet, valueOf_written ((twosComplement_lt 128 _).trans_eq (by norm_num)),
        Option.map_some, hback]
    have hcovered := not_lt.mpr tick.covered
    have hbit : bitmap.testBit i = true := hflag
    simp only [htag, hsigned, hgross, hbit, hcovered, ↓reduceIte, encodeSlot_length, slotTicks]
    rfl

theorem slotTicks_cons (slot : Option DynamicTickData) (slots : List (Option DynamicTickData)) :
    slotTicks start tickSpacing i (slot :: slots) =
      slotTicks start tickSpacing i [slot] ++ slotTicks start tickSpacing (i + 1) slots := by
  cases slot <;> rfl

/-- Reading slots never goes back. -/
theorem slots_end {is : List ℕ} {e : ℕ} {ticks' : List InitializedTick}
    (h : is.foldlM (dynamicSlot data bitmap start tickSpacing) (offset, ticks) = some (e, ticks')) :
    offset ≤ e := by
  induction is generalizing offset ticks with
  | nil =>
    obtain ⟨rfl, -⟩ := Prod.mk.inj (Option.some.inj h)
    exact le_rfl
  | cons i is ih =>
    obtain ⟨⟨offset', ticks''⟩, hslot, hrest⟩ := Option.bind_eq_some_iff.mp h
    have hstep : offset ≤ offset' := by
      unfold dynamicSlot at hslot
      dsimp only at hslot
      split at hslot
      · cases hslot
      · split at hslot
        · simp only [Option.some.injEq, Prod.mk.injEq] at hslot
          omega
        · split at hslot
          · split at hslot
            · split at hslot
              · cases hslot
              · simp only [Option.some.injEq, Prod.mk.injEq] at hslot
                omega
            · cases hslot
          · cases hslot
    exact hstep.trans (ih hrest)

/-- The slots from the `i`th on are read to the end of the account exactly when the rest of it
encodes them. -/
theorem slots_read (n : ℕ) {ticks' : List InitializedTick} (hle : offset ≤ data.length) :
    (List.range' i n).foldlM (dynamicSlot data bitmap start tickSpacing) (offset, ticks) =
        some (data.length, ticks') ↔
      ∃ slots : List (Option DynamicTickData), slots.length = n ∧ Flagged bitmap i slots ∧
        data.drop offset = slots.flatMap encodeSlot ∧
        ticks' = ticks ++ slotTicks start tickSpacing i slots := by
  induction n generalizing i offset ticks with
  | zero =>
    simp only [List.range'_zero, List.foldlM_nil, Option.pure_def, Option.some.injEq, Prod.mk.injEq]
    constructor
    · rintro ⟨rfl, rfl⟩
      exact ⟨[], rfl, trivial, by simp, by simp [slotTicks]⟩
    · rintro ⟨slots, hlength, -, hdrop, hticks⟩
      obtain rfl := List.length_eq_zero_iff.mp hlength
      have hend : data.length ≤ offset := List.drop_eq_nil_iff.mp hdrop
      exact ⟨by omega, by simpa [slotTicks] using hticks.symm⟩
  | succ n ih =>
    rw [List.range'_succ, List.foldlM_cons]
    constructor
    · intro h
      obtain ⟨⟨offset', ticks''⟩, hslot, hrest⟩ := Option.bind_eq_some_iff.mp h
      have hend : offset' ≤ data.length := slots_end hrest
      obtain ⟨slot, hflag, hdrop, rfl⟩ := dynamicSlot_sound hslot hend
      obtain ⟨slots, hlength, hflags, hdrop', rfl⟩ := (ih hend).mp hrest
      refine ⟨slot :: slots, by simp [hlength], ⟨hflag, hflags⟩, ?_, ?_⟩
      · rw [hdrop, hdrop', List.flatMap_cons]
      · rw [slotTicks_cons slot slots, List.append_assoc]
    · rintro ⟨slots, hlength, hflags, hdrop, rfl⟩
      cases slots with
      | nil => simp at hlength
      | cons slot slots =>
        obtain ⟨hflag, hflags⟩ := hflags
        rw [List.flatMap_cons] at hdrop
        have hslot := @dynamicSlot_complete data bitmap start tickSpacing offset i ticks
          slot _ hflag hdrop
        have hbytes := congrArg List.length hdrop
        rw [List.length_drop, List.length_append] at hbytes
        have hle' : offset + (encodeSlot slot).length ≤ data.length := by omega
        have hdrop' : data.drop (offset + (encodeSlot slot).length) = slots.flatMap encodeSlot := by
          rw [← List.drop_drop, hdrop, List.drop_left]
        refine Option.bind_eq_some_iff.mpr ⟨_, hslot, (ih hle').mpr ⟨slots, ?_, hflags, hdrop', ?_⟩⟩
        · simpa using hlength
        · rw [slotTicks_cons slot slots, List.append_assoc]

end Slots

section Account
variable {data : List UInt8} {start : ℤ} {tickSpacing : UInt16} {ticks : List InitializedTick}

theorem decodeDynamic_eq_some : decodeDynamicTickArray data start tickSpacing = some ticks ↔
    i32At data 8 = some start ∧ ∃ bitmap, u128At data 44 = some bitmap ∧
      (List.range' 0 88).foldlM (dynamicSlot data bitmap start tickSpacing) (60, []) =
        some (data.length, ticks) := by
  unfold decodeDynamicTickArray
  by_cases hstart : i32At data 8 = some start
  · simp only [hstart, ne_eq, not_true_eq_false, ↓reduceIte, true_and]
    cases hbitmap : u128At data dynamicTickBitmapOffset with
    | none => simp [show u128At data 44 = none from hbitmap]
    | some bitmap =>
      simp only [show u128At data 44 = some bitmap from hbitmap, Option.some.injEq,
        exists_eq_left']
      cases hslots : (List.range' 0 tickArraySize).foldlM
          (dynamicSlot data bitmap start tickSpacing)
        (dynamicTicksOffset, []) with
      | none =>
        have hnone : (List.range' 0 88).foldlM
          (dynamicSlot data bitmap start tickSpacing) (60, []) =
          none := hslots
        simp [hnone]
      | some result =>
        have hsome : (List.range' 0 88).foldlM
          (dynamicSlot data bitmap start tickSpacing) (60, []) =
          some result := hslots
        obtain ⟨offset, read⟩ := result
        rw [hsome]
        by_cases hend : offset = data.length <;> simp [hend]
  · simp [hstart]

theorem DynamicTickArray.header_length (array : DynamicTickArray) : array.header.length = 60 := by
  simp [header, array.discriminator_length, array.whirlpool_length]

/-- What an encoded array is decoded to. -/
theorem decodeDynamic_encode (array : DynamicTickArray) (tickSpacing : UInt16) :
    decodeDynamicTickArray array.encode array.start tickSpacing =
      some (array.initialisedTicks tickSpacing) := by
  have hlength : 60 ≤ array.encode.length := by
    rw [DynamicTickArray.encode, List.length_append, array.header_length]
    omega
  have hstart : array.encode.drop 8 = bytesOf 4 (twosComplement 32 array.start) ++
      (array.whirlpool ++ bytesOf 16 array.bitmap ++ array.slots.flatMap encodeSlot) := by
    rw [DynamicTickArray.encode, DynamicTickArray.header, List.append_assoc,
      List.drop_left' array.discriminator_length, List.append_assoc]
  have hbitmap : array.encode.drop 44 =
      bytesOf 16 array.bitmap ++ array.slots.flatMap encodeSlot := by
    rw [show 44 = 8 + (4 + 32) by norm_num, ← List.drop_drop, hstart, ← List.drop_drop,
      List.drop_left' (bytesOf_length _ _), List.append_assoc,
        List.drop_left' array.whirlpool_length]
  have hslots : array.encode.drop 60 = array.slots.flatMap encodeSlot := by
    rw [DynamicTickArray.encode, List.drop_left' array.header_length]
  rw [decodeDynamic_eq_some]
  refine ⟨?_, array.bitmap, ?_, ?_⟩
  · have hfield := fieldAt_of_drop (by omega) hstart (bytesOf_length _ _)
    have hback := wrapSigned_twosComplement 31 array.start_low array.start_high
    rw [i32At, hfield, valueOf_written ((twosComplement_lt 32 _).trans_eq (by norm_num)),
      Option.map_some, hback]
  · have hfield := fieldAt_of_drop (by omega) hbitmap (bytesOf_length _ _)
    rwa [valueOf_written (array.bitmap_high.trans_eq (by norm_num))] at hfield
  · rw [slots_read 88 hlength]
    exact ⟨array.slots, array.slots_length, array.flagged, hslots, rfl⟩

/-- Exactly the encodings are accepted. -/
theorem decodeDynamic_iff : decodeDynamicTickArray data start tickSpacing = some ticks ↔
    ∃ array : DynamicTickArray, array.encode = data ∧ array.start = start ∧
      array.initialisedTicks tickSpacing = ticks := by
  constructor
  · intro h
    obtain ⟨hstart, bitmap, hbitmap, hslots⟩ := decodeDynamic_eq_some.mp h
    obtain ⟨raw, hraw, hwrapped⟩ := Option.map_eq_some_iff.mp hstart
    obtain ⟨hrawBytes, hrawHigh⟩ := written_of_fieldAt hraw
    obtain ⟨hbitmapBytes, hbitmapHigh⟩ := written_of_fieldAt hbitmap
    have hlength : 60 ≤ data.length := (fieldAt_eq_some.mp hbitmap).1
    obtain ⟨slots, hslotsLength, hflags, hdrop, rfl⟩ := (slots_read 88 hlength).mp hslots
    have hbounds : -2 ^ 31 ≤ start ∧ start < 2 ^ 31 := by
      rw [← hwrapped]
      exact wrapSigned_bounds 31 raw
    have hback : twosComplement 32 start = raw := by
      rw [← hwrapped]
      exact twosComplement_wrapSigned (hrawHigh.trans_eq (by norm_num))
    have hdiscriminator : (data.take 8).length = 8 := by
      rw [List.length_take]
      omega
    have hwhirlpool : ((data.drop 12).take 32).length = 32 := by
      rw [List.length_take, List.length_drop]
      omega
    refine ⟨⟨_, start, _, bitmap, slots, hdiscriminator, hbounds.1, hbounds.2, hwhirlpool,
      hbitmapHigh.trans_eq (by norm_num), hslotsLength, hflags⟩, ?_, rfl, rfl⟩
    dsimp only [DynamicTickArray.encode, DynamicTickArray.header]
    rw [hback, hrawBytes, hbitmapBytes, ← hdrop, List.append_assoc, List.append_assoc,
      List.append_assoc,
      show data.drop 60 = (data.drop 44).drop 16 by rw [List.drop_drop], List.take_append_drop,
      show data.drop 44 = (data.drop 12).drop 32 by rw [List.drop_drop], List.take_append_drop,
      show data.drop 12 = (data.drop 8).drop 4 by rw [List.drop_drop], List.take_append_drop,
      List.take_append_drop]
  · rintro ⟨array, rfl, rfl, rfl⟩
    exact decodeDynamic_encode array tickSpacing

end Account

/-- The slots of an encoding are a multiple of a tick's data longer than their tags. -/
theorem slots_length_mod (slots : List (Option DynamicTickData)) :
    ∃ initialised, (slots.flatMap encodeSlot).length = slots.length + 112 * initialised := by
  induction slots with
  | nil => exact ⟨0, rfl⟩
  | cons slot slots ih =>
    obtain ⟨initialised, h⟩ := ih
    rw [List.flatMap_cons, List.length_append, h, List.length_cons, encodeSlot_length]
    split
    · exact ⟨initialised + 1, by omega⟩
    · exact ⟨initialised, by omega⟩

/-- No dynamic array is as long as a fixed one. -/
theorem DynamicTickArray.encode_length_ne (array : DynamicTickArray) :
    array.encode.length ≠ fixedTickArrayLen := by
  obtain ⟨initialised, h⟩ := slots_length_mod array.slots
  rw [encode, List.length_append, array.header_length, h, array.slots_length]
  unfold fixedTickArrayLen ticksOffset tickArraySize tickStateSize
  omega

section Order
variable {start : ℤ} {tickSpacing : UInt16}

theorem mem_slotTicks {i : ℕ} {slots : List (Option DynamicTickData)} {tick : InitializedTick}
    (h : tick ∈ slotTicks start tickSpacing i slots) :
    ∃ j, i ≤ j ∧ j < i + slots.length ∧ tick.tick = tickAt start tickSpacing j := by
  induction slots generalizing i with
  | nil => simp [slotTicks] at h
  | cons slot slots ih =>
    rw [List.length_cons]
    cases slot with
    | none =>
      obtain ⟨j, hle, hlt, htick⟩ := ih h
      exact ⟨j, by omega, by omega, htick⟩
    | some data =>
      rcases List.mem_cons.mp h with rfl | hmem
      · exact ⟨i, le_rfl, by omega, rfl⟩
      · obtain ⟨j, hle, hlt, htick⟩ := ih hmem
        exact ⟨j, by omega, by omega, htick⟩

/-- Slots whose indices are in order give ticks in order. -/
theorem slotTicks_pairwise {R : ℤ → ℤ → Prop} {i : ℕ} {slots : List (Option DynamicTickData)}
    (h : ∀ j k, i ≤ j → j < k → k < i + slots.length →
      R (tickAt start tickSpacing j) (tickAt start tickSpacing k)) :
    (slotTicks start tickSpacing i slots).Pairwise fun a b => R a.tick b.tick := by
  induction slots generalizing i with
  | nil => exact List.Pairwise.nil
  | cons slot slots ih =>
    rw [List.length_cons] at h
    have hrest := ih (i := i + 1) (fun j k hj hjk hk => h j k (by omega) hjk (by omega))
    cases slot with
    | none => exact hrest
    | some data =>
      refine List.Pairwise.cons ?_ hrest
      intro tick hmem
      obtain ⟨j, hle, hlt, htick⟩ := mem_slotTicks hmem
      rw [htick]
      exact h i j le_rfl (by omega) (by omega)

/-- An array whose last slot has an index has an index for every slot. -/
theorem tickAt_eq {j : ℕ} (hlow : -2 ^ 31 ≤ start) (hfits : start + 87 * tickSpacing.toNat < 2 ^ 31)
    (hj : j < 88) : tickAt start tickSpacing j = start + j * tickSpacing.toNat := by
  have hspacing : tickSpacing.toNat < 65536 := tickSpacing.toNat_lt
  have hle : j * tickSpacing.toNat ≤ 87 * tickSpacing.toNat := Nat.mul_le_mul_right _ (by omega)
  unfold tickAt
  rw [← Nat.cast_mul]
  generalize j * tickSpacing.toNat = steps at hle ⊢
  generalize tickSpacing.toNat = spacing at *
  have hproduct : i32 (steps : ℤ) = steps := by
    rw [i32_eq_self_iff]
    omega
  rw [hproduct, i32_eq_self_iff]
  omega

theorem DynamicTickArray.ticks_ascending (array : DynamicTickArray) (tickSpacing : UInt16)
    (hfits : array.start + 87 * tickSpacing.toNat < 2 ^ 31) :
    ((array.initialisedTicks tickSpacing).Pairwise fun a b => a.tick ≤ b.tick) ∧
      (0 < tickSpacing.toNat →
        (array.initialisedTicks tickSpacing).Pairwise fun a b => a.tick < b.tick) := by
  have hlength : array.slots.length = 88 := array.slots_length
  have hindex : ∀ j, j < 88 → tickAt array.start tickSpacing j = array.start + j *
      tickSpacing.toNat :=
    fun j hj => tickAt_eq array.start_low hfits hj
  constructor
  · apply slotTicks_pairwise (R := (· ≤ ·))
    intro j k _ hjk hk
    rw [hindex j (by omega), hindex k (by omega)]
    gcongr
  · intro hpos
    apply slotTicks_pairwise (R := (· < ·))
    intro j k _ hjk hk
    rw [hindex j (by omega), hindex k (by omega)]
    gcongr

end Order

/-- A dynamic array is accepted exactly when it is an encoding, and decoded to its initialised
ticks, which ascend wherever the last slot has an index; and neither layout is read as the other. -/
theorem dynamic_arrays_decoded :
    (∀ data start tickSpacing ticks, decodeDynamicTickArray data start tickSpacing = some ticks ↔
      ∃ array : DynamicTickArray, array.encode = data ∧ array.start = start ∧
        array.initialisedTicks tickSpacing = ticks) ∧
    (∀ (array : DynamicTickArray) (tickSpacing : UInt16),
      array.start + 87 * tickSpacing.toNat < 2 ^ 31 →
        ((array.initialisedTicks tickSpacing).Pairwise fun a b => a.tick ≤ b.tick) ∧
          (0 < tickSpacing.toNat →
            (array.initialisedTicks tickSpacing).Pairwise fun a b => a.tick < b.tick)) ∧
    (∀ (array : DynamicTickArray) (start : ℤ) (tickSpacing : UInt16),
      decodeTickArray array.encode start tickSpacing =
        decodeDynamicTickArray array.encode start tickSpacing) ∧
    ∀ data start tickSpacing, data.length = fixedTickArrayLen →
      decodeTickArray data start tickSpacing = decodeFixedTickArray data start tickSpacing ∧
        ∀ array : DynamicTickArray, array.encode ≠ data := by
  refine ⟨fun _ _ _ _ => decodeDynamic_iff, ?_, ?_, ?_⟩
  · exact fun array tickSpacing hfits => array.ticks_ascending tickSpacing hfits
  · intro array start tickSpacing
    rw [decodeTickArray, if_neg array.encode_length_ne]
  · intro data start tickSpacing hlength
    constructor
    · rw [decodeTickArray, if_pos hlength]
    · rintro array rfl
      exact array.encode_length_ne hlength

instance decidableFlagged (bitmap : ℕ) :
    (i : ℕ) → (slots : List (Option DynamicTickData)) → Decidable (Flagged bitmap i slots)
  | _, [] => .isTrue trivial
  | i, slot :: slots =>
    have := decidableFlagged bitmap (i + 1) slots
    inferInstanceAs (Decidable (bitmap.testBit i = slot.isSome ∧ Flagged bitmap (i + 1) slots))

def sampleTick : DynamicTickData where
  liquidityNet := 5000
  liquidityGross := 5000
  growths := List.replicate 80 0
  net_low := by norm_num
  net_high := by norm_num
  gross_high := by norm_num
  covered := by norm_num
  growths_length := List.length_replicate

/-- An array that starts at the last index there is. -/
def lastArray : DynamicTickArray where
  discriminator := List.replicate 8 0
  start := 2147483647
  whirlpool := List.replicate 32 0
  bitmap := 3
  slots := some sampleTick :: some sampleTick :: List.replicate 86 none
  discriminator_length := List.length_replicate
  start_low := by norm_num
  start_high := by norm_num
  whirlpool_length := List.length_replicate
  bitmap_high := by norm_num
  slots_length := rfl
  flagged := by decide +kernel

/-- The second index wraps round below the first. -/
theorem wrapped_tick_descends :
    ¬ ∀ data start tickSpacing ticks, decodeDynamicTickArray data start tickSpacing = some ticks →
      ticks.Pairwise fun a b => a.tick ≤ b.tick := by
  intro h
  have hticks : lastArray.initialisedTicks 1 = [⟨2147483647, 5000⟩, ⟨-2147483648, 5000⟩] := by
    decide +kernel
  have hordered := h _ _ 1 _ (decodeDynamic_encode lastArray 1)
  rw [hticks] at hordered
  revert hordered
  decide

end ScreenerBot.Direct.Venues.Whirlpool
