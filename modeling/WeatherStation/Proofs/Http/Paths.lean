import WeatherStation.Http.Service
import WeatherStation.Proofs.Document.Record

/-!
# What requests name

Paths and queries are texts with encoded octets. Every text can be written in them, and what they
name is read back: the year and the number of a week, and the two dates of a range.

Results:
* `Text.readInt_intText`: whole numbers.
* `Http.percentDecode?_percentEncode`, `Http.formDecode_percentEncode`: any text, with all of its
  octets encoded.
* `IsoWeek.stamp_eq_append`: the stamp of a week is cut into its year and its number in one way.
* `Http.weekOf?_eq_some`: year and number of a week in a path.
* `Http.rangeOf?_rangeQuery`: the query for the days between any two dates.
-/

namespace WeatherStation

open Text

/-! ## Numerals -/

namespace Text

/-- A whole number is read from its digits, after a minus sign if it is negative. -/
theorem readInt_intText {limit : ℕ} {n : ℤ} (hlow : -(limit : ℤ) - 1 ≤ n) (hhigh : n ≤ limit) :
    readInt limit (intText n).toList = .ok n := by
  have hdigits (m : ℕ) : ∀ c ∈ (natText m).toList, c.isDigit = true := fun c hc => by
    rw [natText_eq_padded] at hc
    exact isDigit_of_mem_padded hc
  have hvalue (m : ℕ) : Nat.ofDigitChars 10 (natText m).toList 0 = m := by
    rw [natText_eq_padded, ofDigitChars_padded]
  have hread {most : ℕ} {beyond : NumeralError} {m : ℕ} (hm : m ≤ most) :
      readDigits most beyond 0 (natText m).toList = .ok m := by
    rw [readDigits_digits (hdigits m) (by rwa [hvalue]), hvalue]
  have hne : (natText n.natAbs).toList ≠ [] := by
    rw [natText_eq_padded]
    exact Scan.padded_ne_nil 0 n.natAbs
  rw [intText]
  split_ifs with hn
  · have htext : ("-" ++ natText n.natAbs).toList = '-' :: (natText n.natAbs).toList := by simp
    have hlimit : readDigits (limit + 1) .tooSmall 0 (natText n.natAbs).toList = .ok n.natAbs :=
      hread (by omega)
    rw [htext]
    obtain ⟨c, ds, hds⟩ := List.exists_cons_of_ne_nil hne
    rw [hds] at hlimit ⊢
    have hneg : -((n.natAbs : ℕ) : ℤ) = n := by omega
    show (readDigits (limit + 1) .tooSmall 0 (c :: ds)).map (fun n => -Int.ofNat n) = .ok n
    rw [hlimit]
    exact congrArg Except.ok hneg
  · have hlimit : readDigits limit .tooLarge 0 (natText n.natAbs).toList = .ok n.natAbs :=
      hread (by omega)
    have hsign {c : Char} {ds : List Char} (hds : (natText n.natAbs).toList = c :: ds) :
        c.isDigit = true := hdigits n.natAbs c (by rw [hds]; exact .head _)
    rw [readInt.eq_def]
    split
    · next hnil => exact absurd hnil hne
    · next hds => exact absurd (hsign hds) (by decide)
    · next hds => exact absurd (hsign hds) (by decide)
    · next hds => exact absurd (hsign hds) (by decide)
    · next hds => exact absurd (hsign hds) (by decide)
    · have hpos : ((n.natAbs : ℕ) : ℤ) = n := by omega
      rw [hlimit]
      exact congrArg Except.ok hpos

end Text

/-! ## Encoded texts -/

namespace Http

theorem toList_byteArray (bs : ByteArray) : bs.toList = bs.data.toList := by
  have hloop (i : ℕ) (r : List UInt8) :
      ByteArray.toList.loop bs i r = r.reverse ++ bs.data.toList.drop i := by
    induction i, r using ByteArray.toList.loop.induct bs with
    | case1 i r hlt ih =>
      have hi : i < bs.data.toList.length := by simpa using hlt
      have hget : bs.get! i = bs.data.toList[i] := by
        show bs.data[i]! = _
        rw [getElem!_pos bs.data i (by simpa using hi), Array.getElem_toList]
      rw [ByteArray.toList.loop, if_pos hlt, ih, List.reverse_cons, List.append_assoc,
        List.drop_eq_getElem_cons hi, hget]
      rfl
    | case2 i r hge =>
      rw [ByteArray.toList.loop, if_neg hge, List.drop_of_length_le (by simpa using hge),
        List.append_nil]
  exact hloop 0 []

/-- An octet as a percent sign and two hexadecimal digits. -/
def encodeOctet (o : UInt8) : List Char :=
  ['%', Nat.digitChar (o.toNat / 16), Nat.digitChar (o.toNat % 16)]

/-- A text with all octets encoded. -/
def percentEncode (s : String) : String := String.ofList (s.toUTF8.toList.flatMap encodeOctet)

theorem digitChar_lt {n : ℕ} (hn : n < 16) : (Nat.digitChar n).toNat < 128 := by
  interval_cases n <;> decide

theorem hexDigit?_digitChar {n : ℕ} (hn : n < 16) : hexDigit? (Nat.digitChar n) = some n := by
  interval_cases n <;> decide

/-- The signs of encoded octets are ASCII. -/
theorem toNat_lt_of_mem_encodeOctet {o : UInt8} {c : Char} (hc : c ∈ encodeOctet o) :
    c.toNat < 128 := by
  have ho := o.toNat_lt
  simp only [encodeOctet, List.mem_cons, List.not_mem_nil, or_false] at hc
  rcases hc with rfl | rfl | rfl
  · decide
  · exact digitChar_lt (by omega)
  · exact digitChar_lt (by omega)

/-- ASCII signs are octets. -/
theorem octets_ofList {cs : List Char} (hcs : ∀ c ∈ cs, c.toNat < 128) :
    (String.ofList cs).toUTF8.toList = cs.map fun c => UInt8.ofNat c.toNat := by
  have hflat : cs.flatMap String.utf8EncodeChar = cs.map fun c => UInt8.ofNat c.toNat := by
    induction cs with
    | nil => rfl
    | cons c cs ih =>
      have hc : c.utf8Size = 1 :=
        Char.utf8Size_eq_one_iff.2 (UInt32.le_iff_toNat_le.2
          (Nat.le_of_lt_succ (hcs c List.mem_cons_self)))
      rw [List.flatMap_cons, List.map_cons, ih fun d hd => hcs d (List.mem_cons_of_mem c hd),
        String.utf8EncodeChar_eq_singleton hc]
      rfl
  have hbytes : (String.ofList cs).toUTF8 = (cs.flatMap String.utf8EncodeChar).toByteArray :=
    String.toByteArray_ofList
  rw [toList_byteArray, hbytes, List.toList_data_toByteArray, hflat]

/-- Encoded octets are decoded one by one. -/
theorem decodeOctets_encodeOctet (o : UInt8) (rest : List UInt8) :
    decodeOctets ((encodeOctet o).map (fun c => UInt8.ofNat c.toNat) ++ rest) =
      o :: decodeOctets rest := by
  have ho := o.toNat_lt
  have hchar {n : ℕ} (hn : n < 16) :
      Char.ofNat (UInt8.ofNat (Nat.digitChar n).toNat).toNat = Nat.digitChar n := by
    interval_cases n <;> decide
  have hback : UInt8.ofNat (16 * (o.toNat / 16) + o.toNat % 16) = o := by
    rw [Nat.div_add_mod, UInt8.ofNat_toNat]
  show decodeOctets (37 :: UInt8.ofNat (Nat.digitChar (o.toNat / 16)).toNat ::
    UInt8.ofNat (Nat.digitChar (o.toNat % 16)).toNat :: rest) = _
  rw [decodeOctets, hchar (by omega), hchar (by omega), hexDigit?_digitChar (by omega),
    hexDigit?_digitChar (by omega)]
  dsimp only
  rw [hback]

theorem decodeOctets_flatMap (os : List UInt8) :
    decodeOctets ((os.flatMap encodeOctet).map fun c => UInt8.ofNat c.toNat) = os := by
  induction os with
  | nil => rfl
  | cons o os ih => rw [List.flatMap_cons, List.map_append, decodeOctets_encodeOctet, ih]

/-- Every text can be encoded. -/
theorem percentDecode?_percentEncode (s : String) : percentDecode? (percentEncode s) = some s := by
  have hoctets : decodeOctets (percentEncode s).toUTF8.toList = s.toUTF8.data.toList := by
    rw [percentEncode, octets_ofList, decodeOctets_flatMap, toList_byteArray]
    intro c hc
    obtain ⟨o, -, ho⟩ := List.mem_flatMap.1 hc
    exact toNat_lt_of_mem_encodeOctet ho
  rw [percentDecode?, hoctets]
  exact dif_pos s.isValidUTF8

/-! ## Queries -/

theorem notMem_percentEncode {c : Char} (hc : c.isAlphanum = false) (hp : c ≠ '%') (s : String) :
    c ∉ (percentEncode s).toList := by
  intro hmem
  rw [percentEncode, String.toList_ofList] at hmem
  obtain ⟨o, -, ho⟩ := List.mem_flatMap.1 hmem
  have hlt := o.toNat_lt
  have hdigit {n : ℕ} (hn : n < 16) : (Nat.digitChar n).isAlphanum = true := by
    interval_cases n <;> decide
  simp only [encodeOctet, List.mem_cons, List.not_mem_nil, or_false] at ho
  rcases ho with rfl | rfl | rfl
  · exact hp rfl
  · rw [hdigit (by omega)] at hc
    cases hc
  · rw [hdigit (by omega)] at hc
    cases hc

/-- In form data, too. -/
theorem formDecode_percentEncode (s : String) : formDecode (percentEncode s).toList = s := by
  have hplus : (percentEncode s).toList.map (fun c => if c = '+' then ' ' else c) =
      (percentEncode s).toList := by
    refine (List.map_congr_left (g := id) fun c hc => if_neg fun he => ?_).trans (List.map_id _)
    exact notMem_percentEncode (by decide) (by decide) s (he ▸ hc)
  rw [formDecode, hplus, String.ofList_toList, percentDecode?_percentEncode]
  rfl

/-- The query for the days between two dates. -/
def rangeQuery (first last : Date) : String :=
  "from=" ++ percentEncode first.stamp ++ "&to=" ++ percentEncode last.stamp

theorem formFields_rangeQuery (first last : Date) :
    formFields (rangeQuery first last) = [("from", first.stamp), ("to", last.stamp)] := by
  have hsplit : (rangeQuery first last).toList.splitOn '&' =
      ["from=".toList ++ (percentEncode first.stamp).toList,
        "to=".toList ++ (percentEncode last.stamp).toList] := by
    have hpart {name : String} (hname : '&' ∉ name.toList) (d : Date) :
        '&' ∉ name.toList ++ (percentEncode d.stamp).toList := fun hc =>
      (List.mem_append.1 hc).elim hname (notMem_percentEncode (by decide) (by decide) _)
    have htext : (rangeQuery first last).toList =
        ("from=".toList ++ (percentEncode first.stamp).toList) ++
          '&' :: ("to=".toList ++ (percentEncode last.stamp).toList) := by
      simp [rangeQuery]
    rw [htext, List.splitOn_append_cons_self_of_not_mem (hpart (by decide) first),
      List.splitOn_eq_singleton (hpart (by decide) last)]
  have hfrom : formDecode ['f', 'r', 'o', 'm'] = "from" := by decide +kernel
  have hto : formDecode ['t', 'o'] = "to" := by decide +kernel
  rw [formFields, hsplit]
  show [(formDecode ['f', 'r', 'o', 'm'], formDecode (percentEncode first.stamp).toList),
    (formDecode ['t', 'o'], formDecode (percentEncode last.stamp).toList)] = _
  rw [hfrom, hto, formDecode_percentEncode, formDecode_percentEncode]

/-- Any two dates can be asked for. -/
theorem rangeOf?_rangeQuery (first last : Date) :
    rangeOf? (rangeQuery first last) = some (first, last) := by
  have hfrom : onlyField? (formFields (rangeQuery first last)) "from" =
      some (some first.stamp) := by
    rw [formFields_rangeQuery]
    rfl
  have hto : onlyField? (formFields (rangeQuery first last)) "to" = some (some last.stamp) := by
    rw [formFields_rangeQuery]
    rfl
  simp only [rangeOf?, hfrom, hto, Option.bind_eq_bind, Option.bind_some, Date.ofText?_stamp]
  rfl

/-! ## Weeks -/

/-- Year and number of a week, as they stand in its stamp. -/
theorem weekOf?_eq_some {w : IsoWeek} {year week : String}
    (hyear : percentDecode? year = some (intText w.year.toInt))
    (hweek : percentDecode? week = some (padded 2 w.week.toNat)) :
    weekOf? year week = some (w.year, w.week) := by
  have hy : readInt (UInt32.size / 2 - 1) (intText w.year.toInt).toList = .ok w.year.toInt := by
    have hlow := w.year.le_toInt
    have hhigh := w.year.toInt_lt
    exact readInt_intText (by norm_num [UInt32.size]; omega) (by norm_num [UInt32.size]; omega)
  have hw : readNat (UInt32.size - 1) (padded 2 w.week.toNat).toList = .ok w.week.toNat :=
    readNat_padded 2 (Nat.le_sub_one_of_lt w.week.toNat_lt)
  simp only [weekOf?, hyear, hweek, Option.bind_eq_bind, Option.bind_some, hy, hw,
    Except.toOption]
  simp

end Http

/-- The stamp of a week is cut into its year and its number in one way. -/
theorem IsoWeek.stamp_eq_append {w : IsoWeek} {year week : String}
    (h : w.stamp = year ++ "-W" ++ week) :
    year = intText w.year.toInt ∧ week = padded 2 w.week.toNat := by
  have hcut (y n : String) : (y ++ "-W" ++ n).toList = (y.toList ++ ['-']) ++ 'W' :: n.toList := by
    simp
  have hstamp : (intText w.year.toInt ++ "-W" ++ padded 2 w.week.toNat).toList =
      (year ++ "-W" ++ week).toList := congrArg String.toList h
  have hyear : 'W' ∉ (intText w.year.toInt).toList := notMem_intText (by decide) (by decide) _
  have hnumber : 'W' ∉ (padded 2 w.week.toNat).toList := notMem_padded (by decide) _ _
  rw [hcut, hcut] at hstamp
  -- There is only one `W` in the stamp.
  have hweek : 'W' ∉ week.toList := by
    have hcount := congrArg (List.count 'W') hstamp
    simp only [List.count_append, List.count_cons_self, List.count_eq_zero_of_not_mem hyear,
      List.count_eq_zero_of_not_mem hnumber] at hcount
    exact List.count_eq_zero.1 (by omega)
  obtain ⟨hy, hn⟩ := append_cons_inj hnumber hweek hstamp
  exact ⟨(String.toList_injective (List.append_cancel_right hy)).symm,
    (String.toList_injective hn).symm⟩

end WeatherStation
