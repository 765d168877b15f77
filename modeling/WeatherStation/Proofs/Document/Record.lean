import WeatherStation.Document.Record
import WeatherStation.Proofs.SortedMap
import WeatherStation.Proofs.Time.Reading

/-!
# Documents are read back

What is written as a document is read back from it: numbers, texts and instants, and from these
lists, sets, maps and the fields of records, whether they have to be there or not.

Results:
* `Faithful`: the values of a kind are read back from their documents, and only these are read.
* `faithful_real`, `faithful_instant`: finite numbers and instants.
* `Faithful.nullable`, `Faithful.list`, `Faithful.indexed`, `Faithful.perMetric`: what documents are
  built with.
* `Record.read?_members`: the fields of a record.
-/

namespace WeatherStation

variable {α β : Type}

/-! ## Numerals of indices -/

namespace Text

theorem le_ofDigitChars (ds : List Char) (n : ℕ) : n ≤ Nat.ofDigitChars 10 ds n := by
  rw [Nat.ofDigitChars_eq_ofDigitChars_zero]
  have : n ≤ 10 ^ ds.length * n := Nat.le_mul_of_pos_left n (by positivity)
  omega

theorem readDigits_digits {limit n : ℕ} {beyond : NumeralError} {ds : List Char}
    (hds : ∀ c ∈ ds, c.isDigit = true) (h : Nat.ofDigitChars 10 ds n ≤ limit) :
    readDigits limit beyond n ds = .ok (Nat.ofDigitChars 10 ds n) := by
  induction ds generalizing n with
  | nil => rfl
  | cons c ds ih =>
    rw [Nat.ofDigitChars_cons] at h ⊢
    have hle := (le_ofDigitChars ds _).trans h
    simp only [readDigits, digit?_of_isDigit (hds c List.mem_cons_self)]
    rw [if_pos hle]
    exact ih (fun d hd => hds d (List.mem_cons_of_mem c hd)) h

/-- A number is read from its digits, after any zeros. -/
theorem readNat_padded {limit n : ℕ} (width : ℕ) (h : n ≤ limit) :
    readNat limit (padded width n).toList = .ok n := by
  have hplus (rest : List Char) : (padded width n).toList ≠ '+' :: rest := fun he => by
    have hplus : '+' ∈ (padded width n).toList := by
      rw [he]
      exact .head _
    exact absurd (isDigit_of_mem_padded hplus) (by decide)
  have hvalue := ofDigitChars_padded width n
  rw [readNat.eq_def]
  split
  · next hnil => exact absurd hnil (Scan.padded_ne_nil width n)
  · next he => exact absurd he (hplus [])
  · next he => exact absurd he (hplus _)
  · rw [readDigits_digits (fun c hc => isDigit_of_mem_padded hc) (by rw [hvalue]; exact h), hvalue]

/-- Only zero begins with the digit zero. -/
theorem eq_zero_of_head?_toDigits {n : ℕ} (h : (Nat.toDigits 10 n).head? = some '0') : n = 0 := by
  induction n using Nat.strong_induction_on with
  | _ n ih =>
    rcases lt_or_ge n 10 with hn | hn
    · rw [Nat.toDigits_of_lt_base hn] at h
      revert h
      interval_cases n <;> decide
    · rw [Nat.toDigits_of_base_le (by decide) hn,
        List.head?_append_of_ne_nil _ Nat.toDigits_ne_nil] at h
      have := ih (n / 10) (by omega) h
      omega

end Text

namespace Document

/-- An index is read from its digits. -/
theorem index?_natText (n : UInt32) : index? ⟨Text.natText n.toNat, true⟩ = some n := by
  have hread : Text.readNat (UInt32.size - 1) (Text.natText n.toNat).toList = .ok n.toNat :=
    Text.natText_eq_padded n.toNat ▸ Text.readNat_padded 0 (Nat.le_sub_one_of_lt n.toNat_lt)
  have hplus : (Nat.toDigits 10 n.toNat).head? ≠ some '+' := fun he => by
    have hd : '+'.isDigit = true :=
      Nat.isDigit_of_mem_toDigits (by decide) (by decide) (List.mem_of_mem_head? he)
    cases hd
  have hzero (he : (Nat.toDigits 10 n.toNat).head? = some '0') :
      Nat.toDigits 10 n.toNat = ['0'] := by
    rw [Text.eq_zero_of_head?_toDigits he, Nat.toDigits_zero]
  rw [index?, if_neg (by simpa [hplus] using hzero), hread]
  simp

/-! ## What is read back -/

/-- The values of a kind are read back from their documents, and only these values are read. -/
structure Faithful (P : β → Prop) (encode : β → Json α) (decode : Json α → Option β) : Prop where
  reads : ∀ {b}, P b → decode (encode b) = some b
  sound : ∀ {v b}, decode v = some b → P b

variable {P : β → Prop} {encode : β → Json α} {decode : Json α → Option β}

theorem faithful_str : Faithful (fun _ => True) (Json.str : String → Json α) Json.str? :=
  ⟨fun _ => rfl, fun _ => trivial⟩

theorem faithful_bool : Faithful (fun _ => True) (Json.bool : Bool → Json α) Json.bool? :=
  ⟨fun _ => rfl, fun _ => trivial⟩

theorem nat?_int {limit n : ℕ} (h : n ≤ limit) : (Json.int n : Json α).nat? limit = some n := by
  rw [Json.nat?, if_pos ⟨Int.natCast_nonneg n, Int.ofNat_le.2 h⟩, Int.toNat_natCast]

theorem faithful_uInt32 : Faithful (fun _ => True) (encodeUInt32 (α := α)) decodeUInt32? where
  reads {n} _ := by
    rw [decodeUInt32?, encodeUInt32, nat?_int (Nat.le_sub_one_of_lt n.toNat_lt), Option.map_some,
      UInt32.ofNat_toNat]
  sound _ := trivial

theorem faithful_uInt64 : Faithful (fun _ => True) (encodeUInt64 (α := α)) decodeUInt64? where
  reads {n} _ := by
    rw [decodeUInt64?, encodeUInt64, nat?_int (Nat.le_sub_one_of_lt n.toNat_lt), Option.map_some,
      UInt64.ofNat_toNat]
  sound _ := trivial

theorem faithful_int32 : Faithful (fun _ => True) (encodeInt32 (α := α)) decodeInt32? where
  reads {n} _ := by
    have hrange : Int32.minValue.toInt ≤ n.toInt ∧ n.toInt ≤ Int32.maxValue.toInt :=
      ⟨n.minValue_le_toInt, n.toInt_le⟩
    show (guard _ >>= fun _ => pure (Int32.ofInt n.toInt)) = some n
    rw [guard, if_pos hrange, Int32.ofInt_toInt]
    rfl
  sound _ := trivial

/-- Finite numbers, written with or without a fraction. -/
theorem faithful_real [Quantity α] :
    Faithful (fun x : α => Quantity.isFinite x = true) encodeReal decodeReal? where
  reads {x} hx := by
    rw [encodeReal, if_pos hx, decodeReal?, if_pos hx]
  sound {v x} h := by
    cases v with
    | int n =>
      rw [decodeReal?] at h
      split_ifs at h with hn
      exact Option.some.inj h ▸ hn
    | real y =>
      rw [decodeReal?] at h
      split_ifs at h with hy
      exact Option.some.inj h ▸ hy
    | _ => cases h

theorem faithful_instant : Faithful (fun _ => True) (encodeInstant (α := α)) decodeInstant? :=
  ⟨fun {t} _ => t.ofText?_text, fun _ => trivial⟩

/-! ## Fields -/

theorem optional_none : optional decode none = some none := rfl

/-- A value other than null. -/
theorem optional_some (hnull : decode .null = none) {v : Json α} {b : β} (h : decode v = some b) :
    optional decode (some v) = some (some b) := by
  cases v with
  | null => rw [hnull] at h; cases h
  | _ => exact congrArg (Option.map some) h

/-- A field that is left out where there is no value. -/
theorem Faithful.optional_map (h : Faithful P encode decode) (hnull : decode .null = none)
    {o : Option β} (ho : ∀ b, o = some b → P b) : optional decode (o.map encode) = some o := by
  cases o with
  | none => rfl
  | some b => exact optional_some hnull (h.reads (ho b rfl))

/-- A field that is null where there is no value. -/
theorem Faithful.nullable (h : Faithful P encode decode) (hnull : decode .null = none) :
    Faithful (fun o => ∀ b, o = some b → P b) (nullable encode)
      fun v => optional decode (some v) where
  reads {o} ho := by
    cases o with
    | none => rfl
    | some b => exact optional_some hnull (h.reads (ho b rfl))
  sound {v o} ho b hb := by
    subst hb
    cases v with
    | null => cases ho
    | _ =>
      obtain ⟨b', hb', he⟩ := Option.map_eq_some_iff.1 ho
      obtain rfl := Option.some.inj he
      exact h.sound hb'

theorem Faithful.sound_optional (h : Faithful P encode decode) (hnull : decode .null = none)
    {field : Option (Json α)} {o : Option β} (ho : optional decode field = some o) (b : β)
    (hb : o = some b) : P b := by
  cases field with
  | none =>
    subst hb
    cases ho
  | some v => exact (h.nullable hnull).sound ho b hb

theorem Faithful.sound_required (h : Faithful P encode decode) {field : Option (Json α)} {b : β}
    (hb : required decode field = some b) : P b := by
  obtain ⟨v, -, hv⟩ := Option.bind_eq_some_iff.1 hb
  exact h.sound hv

theorem Faithful.sound_defaulted (h : Faithful P encode decode) {default : β} (hdefault : P default)
    {field : Option (Json α)} {b : β} (hb : defaulted default decode field = some b) : P b := by
  cases field with
  | none => exact Option.some.inj hb ▸ hdefault
  | some v => exact h.sound hb

/-! ## Lists and maps -/

theorem Faithful.list (h : Faithful P encode decode) :
    Faithful (fun l => ∀ b ∈ l, P b) (encodeList encode) (decodeList? decode) where
  reads {l} hl := by
    show (l.map encode).mapM decode = some l
    induction l with
    | nil => rfl
    | cons b l ih =>
      rw [List.map_cons, List.mapM_cons, h.reads (hl b List.mem_cons_self),
        ih fun c hc => hl c (List.mem_cons_of_mem b hc)]
      rfl
  sound {v l} hl := by
    obtain ⟨items, -, hitems⟩ := Option.bind_eq_some_iff.1 hl
    clear hl
    induction items generalizing l with
    | nil =>
      cases hitems
      exact fun b hb => by cases hb
    | cons v items ih =>
      rw [List.mapM_cons] at hitems
      obtain ⟨b, hb, hitems⟩ := Option.bind_eq_some_iff.1 hitems
      obtain ⟨rest, hrest, hitems⟩ := Option.bind_eq_some_iff.1 hitems
      cases hitems
      intro c hc
      rcases List.mem_cons.1 hc with rfl | hc
      · exact h.sound hb
      · exact ih hrest c hc

theorem faithful_set : Faithful (fun _ => True) (encodeSet (α := α)) decodeSet? where
  reads {s} _ := by
    rw [decodeSet?, encodeSet, faithful_str.list.reads fun _ _ => trivial, Option.map_some,
      SortedSet.ofList_keys]
  sound _ := trivial

/-- What every step of a fold keeps. -/
theorem foldlM_eq_some {γ δ : Type} {f : γ → δ → Option γ} {Q : γ → Prop}
    (hf : ∀ c x c', f c x = some c' → Q c → Q c') {l : List δ} {c c' : γ} (hc : Q c)
    (h : l.foldlM f c = some c') : Q c' := by
  induction l generalizing c with
  | nil =>
    cases h
    exact hc
  | cons x l ih =>
    rw [List.foldlM_cons] at h
    obtain ⟨d, hd, h⟩ := Option.bind_eq_some_iff.1 h
    exact ih (hf c x d hd hc) h

theorem Faithful.indexed (h : Faithful P encode decode) :
    Faithful (fun m : SortedMap UInt32 β => ∀ k b, m.find? k = some b → P b)
      (encodeIndexed encode) (decodeIndexed? decode) where
  reads {m} hm := by
    -- The entries are inserted one by one, which gives the map of the list of entries.
    have hfold (l : List (UInt32 × β)) (hl : ∀ e ∈ l, P e.2) (m' : SortedMap UInt32 β) :
        (l.map fun e => ((⟨Text.natText e.1.toNat, true⟩ : MemberName), encode e.2)).foldlM
            (fun map m => do return map.insert (← index? m.1) (← decode m.2)) m' =
          some (l.foldl (fun m e => m.insert e.1 e.2) m') := by
      induction l generalizing m' with
      | nil => rfl
      | cons e l ih =>
        rw [List.map_cons, List.foldlM_cons, index?_natText, h.reads (hl e List.mem_cons_self)]
        exact ih (fun e' he' => hl e' (List.mem_cons_of_mem e he')) _
    have hentries : ∀ e ∈ m.entries, P e.2 := fun e he => hm e.1 e.2 (m.mem_entries_iff.1 he)
    have hread := hfold m.entries hentries SortedMap.empty
    rw [← SortedMap.ofList, SortedMap.ofList_entries] at hread
    rw [decodeIndexed?, encodeIndexed, Json.object, List.map_map]
    exact hread
  sound {v m} hm := by
    obtain ⟨members, -, hm⟩ := Option.bind_eq_some_iff.1 hm
    refine foldlM_eq_some (Q := fun m => ∀ k b, m.find? k = some b → P b) ?_ ?_ hm
    · intro m e m' he hm k b hb
      obtain ⟨i, -, he⟩ := Option.bind_eq_some_iff.1 he
      obtain ⟨c, hc, he⟩ := Option.bind_eq_some_iff.1 he
      obtain rfl := Option.some.inj he
      rw [SortedMap.find?_insert] at hb
      split_ifs at hb with hk
      · obtain rfl := Option.some.inj hb
        exact h.sound hc
      · exact hm k b hb
    · intro k b hb
      cases hb

theorem Faithful.perMetric (h : Faithful P encode decode) :
    Faithful (fun f : PerMetric (Option β) => ∀ m b, f.get m = some b → P b)
      (encodePerMetric encode) (decodePerMetric? decode) where
  reads {f} hf := by
    have hfold (ms : List Metric) (f' : PerMetric (Option β)) :
        ((ms.flatMap fun m => member? m.name encode (f.get m)).map fun e =>
          ((⟨e.1, true⟩ : MemberName), e.2)).foldlM
            (fun f m => do return f.set (← Metric.ofName? m.1.text) (some (← decode m.2))) f' =
          some (ms.foldl (fun f' m => if (f.get m).isSome then f'.set m (f.get m) else f') f') := by
      induction ms generalizing f' with
      | nil => rfl
      | cons m ms ih =>
        rw [List.flatMap_cons, List.map_append, List.foldlM_append, List.foldl_cons]
        cases hm : f.get m with
        | none => exact ih f'
        | some b =>
          have hstep : [(⟨m.name, true⟩, encode b)].foldlM (fun f (m : MemberName × Json α) =>
              do return f.set (← Metric.ofName? m.1.text) (some (← decode m.2))) f' =
                some (f'.set m (some b)) := by
            rw [List.foldlM_cons, Metric.ofName?_name, h.reads (hf m b hm)]
            rfl
          exact (congrArg (· >>= _) hstep).trans (ih _)
    have hread := hfold Metric.all (.const none)
    rw [decodePerMetric?, encodePerMetric, Json.object, PerMetric.toList, List.flatMap_map]
    -- For each metric there is a value or none.
    refine hread.trans (congrArg some ?_)
    obtain ⟨_ | _, _ | _, _ | _⟩ := f <;> rfl
  sound {v f} hf := by
    obtain ⟨members, -, hf⟩ := Option.bind_eq_some_iff.1 hf
    refine foldlM_eq_some (Q := fun f => ∀ m b, f.get m = some b → P b) ?_ ?_ hf
    · intro f e f' he hf m b hb
      obtain ⟨k, -, he⟩ := Option.bind_eq_some_iff.1 he
      obtain ⟨c, hc, he⟩ := Option.bind_eq_some_iff.1 he
      obtain rfl := Option.some.inj he
      by_cases hk : m = k
      · rw [hk, PerMetric.get_set_self] at hb
        obtain rfl := Option.some.inj hb
        exact h.sound hc
      · rw [PerMetric.get_set_ne f hk] at hb
        exact hf m b hb
    · intro m b hb
      rw [PerMetric.get_const] at hb
      cases hb

/-- No values, where there is no field. -/
theorem Faithful.sound_perMetric (h : Faithful P encode decode) {field : Option (Json α)}
    {f : PerMetric (Option β)}
    (hf : defaulted (.const none) (decodePerMetric? decode) field = some f) (m : Metric) (b : β)
    (hb : f.get m = some b) : P b := by
  refine h.perMetric.sound_defaulted (fun m b hb => ?_) hf m b hb
  rw [PerMetric.get_const] at hb
  cases hb

/-! ## Records -/

/-- The members of a record whose fields have some values. -/
def Record.members (fields : List Field) (values : List (Option (Json α))) :
    List (String × Json α) :=
  (fields.zip values).flatMap fun e => member? e.1.name id e.2

theorem Record.members_nil : members [] ([] : List (Option (Json α))) = [] := rfl

theorem Record.members_cons (f : Field) (fields : List Field) (v : Option (Json α))
    (values : List (Option (Json α))) :
    members (f :: fields) (v :: values) = member? f.name id v ++ members fields values :=
  List.flatMap_cons

/-- A field is written by the document of its value. -/
theorem member?_eq (name : String) (o : Option β) :
    member? name encode o = member? name id (o.map encode) := by
  cases o <;> rfl

/-- The last field of a record. -/
theorem member?_last (f : Field) (o : Option β) :
    member? f.name encode o = Record.members [f] [o.map encode] := by
  rw [member?_eq, Record.members_cons, Record.members_nil, List.append_nil]

theorem Record.exists_field {fields : List Field} {values : List (Option (Json α))}
    {m : String × Json α} (h : m ∈ members fields values) : ∃ f ∈ fields, m.1 = f.name := by
  obtain ⟨⟨f, v⟩, he, hm⟩ := List.mem_flatMap.1 h
  refine ⟨f, (List.of_mem_zip he).1, ?_⟩
  cases v with
  | none => cases hm
  | some v => rw [List.mem_singleton.1 hm]

/-- Members with other names do not matter. -/
theorem single?_append {before members after : List (MemberName × Json α)} {name : String}
    (hbefore : ∀ m ∈ before, m.1.text ≠ name) (hafter : ∀ m ∈ after, m.1.text ≠ name) :
    single? (before ++ (members ++ after)) name = single? members name := by
  have hnone {l : List (MemberName × Json α)} (hl : ∀ m ∈ l, m.1.text ≠ name) :
      l.filter (fun m => m.1.text == name) = [] :=
    List.filter_eq_nil_iff.2 fun m hm => by simpa using hl m hm
  rw [single?, single?, List.filter_append, List.filter_append, hnone hbefore, hnone hafter,
    List.nil_append, List.append_nil]

/-- The fields of a record are read from its members, if no two have the same name. -/
theorem Record.read?_members {fields : List Field} {values : List (Option (Json α))} {doc : Json α}
    (hdoc : doc = .object (members fields values)) (hnames : (fields.map Field.name).Nodup)
    (hlength : fields.length = values.length) : read? fields doc = some values := by
  subst hdoc
  -- By induction on the fields; `before` are the members of the fields that were read already.
  suffices hmembers : ∀ before : List (MemberName × Json α),
      (∀ m ∈ before, ∀ f ∈ fields, m.1.text ≠ f.name) →
        fields.mapM (fun f => single? (before ++ (members fields values).map
          fun m => (⟨m.1, true⟩, m.2)) f.name) = some values from
    hmembers [] fun m hm => by cases hm
  induction fields generalizing values with
  | nil =>
    intro before _
    rw [List.length_eq_zero_iff.1 hlength.symm]
    rfl
  | cons f fields ih =>
    intro before hbefore
    obtain ⟨hf, hfields⟩ := List.nodup_cons.1 hnames
    cases values with
    | nil => cases hlength
    | cons v values =>
      have hafter : ∀ m ∈ (members fields values).map
          (fun m => ((⟨m.1, true⟩ : MemberName), m.2)), m.1.text ≠ f.name := by
        intro m hm he
        obtain ⟨e, he', rfl⟩ := List.mem_map.1 hm
        obtain ⟨f', hf', hname⟩ := exists_field he'
        exact hf (List.mem_map.2 ⟨f', hf', hname.symm.trans he⟩)
      have hown : single? ((member? f.name id v).map fun m => (⟨m.1, true⟩, m.2)) f.name =
          some v := by
        cases v <;> simp [single?, member?]
      rw [List.mapM_cons, members_cons, List.map_append,
        single?_append (fun m hm => hbefore m hm f List.mem_cons_self) hafter, hown]
      simp only [← List.append_assoc]
      rw [ih hfields (Nat.succ.inj hlength)]
      · rfl
      · intro m hm f' hf'
        rcases List.mem_append.1 hm with hm | hm
        · exact hbefore m hm f' (List.mem_cons_of_mem f hf')
        · cases v with
          | none => cases hm
          | some v =>
            rw [List.mem_singleton.1 hm]
            exact fun he => hf (List.mem_map.2 ⟨f', hf', he.symm⟩)

end Document

end WeatherStation
