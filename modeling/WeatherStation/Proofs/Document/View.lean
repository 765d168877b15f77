import WeatherStation.Document.Reading
import WeatherStation.Document.View
import WeatherStation.Proofs.Document.Record
import WeatherStation.Proofs.Document.Tally
import WeatherStation.Proofs.Exact
import WeatherStation.Proofs.View.Metered

/-!
# Documents of views

Views, readings and rain reports are read back from their documents. Conversely, whatever is read
has finite numbers and proper tallies, so that it is read back as well.

Results:
* `Tally.Storable`, `WindowView.Storable`, `View.Storable`: what a document can hold.
* `Tally.faithful`, `RainWindow.faithful`, `Reading.faithful`, `LatestView.faithful`,
  `HourlyView.faithful`, `DailyView.faithful`, `WeeklyView.faithful`, `View.faithful`: each kind of
  document.
* `documents_read_back`: all of it.
-/

namespace WeatherStation

open Document

variable {α : Type} [Quantity α]

/-! ## Tallies -/

namespace Summary

/-- All values are finite. -/
def Finite (s : Summary α) : Prop :=
  Quantity.isFinite s.min = true ∧ Quantity.isFinite s.max = true ∧ Quantity.isFinite s.avg = true

theorem faithful : Faithful Finite (encode (α := α)) decode? where
  reads {s} hs := by
    have hread : Record.read? fields s.encode =
        some [some (encodeReal s.min), some (encodeReal s.max), some (encodeReal s.avg)] :=
      Record.read?_members rfl (by decide) rfl
    simp only [decode?, hread, Option.bind_eq_bind, Option.bind_some, required,
      faithful_real.reads hs.1, faithful_real.reads hs.2.1, faithful_real.reads hs.2.2]
    rfl
  sound {v s} h := by
    obtain ⟨fs, -, h⟩ := Option.bind_eq_some_iff.1 h
    split at h
    · obtain ⟨min, hmin, h⟩ := Option.bind_eq_some_iff.1 h
      obtain ⟨max, hmax, h⟩ := Option.bind_eq_some_iff.1 h
      obtain ⟨avg, havg, h⟩ := Option.bind_eq_some_iff.1 h
      obtain rfl := Option.some.inj h
      exact ⟨faithful_real.sound_required hmin, faithful_real.sound_required hmax,
        faithful_real.sound_required havg⟩
    · cases h

end Summary

namespace Tally

/-- All values are finite. -/
def Finite : Tally α → Prop
  | .active sum _ min max =>
    Quantity.isFinite sum = true ∧ Quantity.isFinite min = true ∧ Quantity.isFinite max = true
  | .closed s => s.Finite

/-- The tally is one that a document can hold. -/
structure Storable (t : Tally α) : Prop where
  finite : t.Finite
  proper : t.Proper

theorem faithful : Faithful Storable (encode (α := α)) decode? where
  reads {t} ht := by
    cases t with
    | active sum count min max =>
      obtain ⟨hsum, hmin, hmax⟩ := ht.finite
      have hread : Record.read? fields (encode (.active sum count min max)) =
          some [some (encodeReal sum), some (encodeUInt64 count), some (encodeReal min),
            some (encodeReal max), none] :=
        Record.read?_members rfl (by decide) rfl
      have hparts : ofParts? sum count min max = .ok (.active sum count min max) :=
        ofParts?_eq_ok.2 ⟨rfl, ht.proper⟩
      simp only [decode?, hread, Option.bind_eq_bind, Option.bind_some, required, optional_none,
        optional_some rfl (faithful_real.reads hsum),
        optional_some rfl (faithful_uInt64.reads trivial), faithful_real.reads hmin,
        faithful_real.reads hmax, ofDocument, hparts]
      rfl
    | closed s =>
      obtain ⟨hmin, hmax, havg⟩ := ht.finite
      have hread : Record.read? fields (encode (.closed s)) =
          some [none, none, some (encodeReal s.min), some (encodeReal s.max),
            some (encodeReal s.avg)] :=
        Record.read?_members rfl (by decide) rfl
      have hparts : ofSummary? s = .ok (.closed s) := ofSummary?_eq_ok.2 ⟨rfl, ht.proper⟩
      simp only [decode?, hread, Option.bind_eq_bind, Option.bind_some, required, optional_none,
        faithful_real.reads hmin, faithful_real.reads hmax,
        optional_some rfl (faithful_real.reads havg), ofDocument, hparts]
      rfl
  sound {doc t} h := by
    obtain ⟨_, _, _, _, _, sum, count, min, max, avg, -, hsum, hcount, hmin, hmax, havg, h⟩ :=
      decode?_eq_some h
    have hmin := faithful_real.sound_required hmin
    have hmax := faithful_real.sound_required hmax
    obtain ⟨hproper, ⟨s, n, hs, -, rfl⟩ | ⟨a, ha, rfl⟩⟩ := ofDocument_ok h
    · exact ⟨⟨faithful_real.sound_optional rfl hsum s hs, hmin, hmax⟩, hproper⟩
    · exact ⟨⟨hmin, hmax, faithful_real.sound_optional rfl havg a ha⟩, hproper⟩

end Tally

/-! ## Rain and readings -/

namespace RainWindow

/-- All amounts are finite. -/
def Finite (w : RainWindow α) : Prop := ∀ x ∈ w.values, Quantity.isFinite x = true

theorem faithful : Faithful Finite (encode (α := α)) decode? where
  reads {w} hw := by
    have hread : Record.read? fields w.encode =
        some [some (encodeList encodeReal w.values), some (encodeUInt32 w.interval),
          some (encodeInstant w.start)] :=
      Record.read?_members rfl (by decide) rfl
    simp only [decode?, hread, Option.bind_eq_bind, Option.bind_some, required,
      faithful_real.list.reads hw, faithful_uInt32.reads trivial, faithful_instant.reads trivial]
    rfl
  sound {doc w} h := by
    obtain ⟨fs, -, h⟩ := Option.bind_eq_some_iff.1 h
    split at h
    · obtain ⟨values, hvalues, h⟩ := Option.bind_eq_some_iff.1 h
      obtain ⟨interval, -, h⟩ := Option.bind_eq_some_iff.1 h
      obtain ⟨start, -, h⟩ := Option.bind_eq_some_iff.1 h
      obtain rfl := Option.some.inj h
      exact faithful_real.list.sound_required hvalues
    · cases h

end RainWindow

namespace RainCounts

/-- The rain of one tip is finite. -/
def Finite (c : RainCounts α) : Prop := Quantity.isFinite c.unitValue = true

theorem faithful : Faithful Finite (encode (α := α)) decode? where
  reads {c} hc := by
    have hread : Record.read? fields c.encode =
        some [some (encodeIndexed encodeUInt32 c.units), some (encodeUInt32 c.interval),
          some (encodeInstant c.start), c.declaredSlots.map encodeUInt32,
          some (encodeReal c.unitValue)] :=
      Record.read?_members (by rw [encode, member?_eq]; rfl) (by decide) rfl
    simp only [decode?, hread, Option.bind_eq_bind, Option.bind_some, required, defaulted,
      faithful_uInt32.indexed.reads fun _ _ _ => trivial, faithful_uInt32.reads trivial,
      faithful_instant.reads trivial, faithful_uInt32.optional_map rfl fun _ _ => trivial,
      faithful_real.reads hc]
    rfl
  sound {doc c} h := by
    obtain ⟨fs, -, h⟩ := Option.bind_eq_some_iff.1 h
    split at h
    · obtain ⟨units, -, h⟩ := Option.bind_eq_some_iff.1 h
      obtain ⟨interval, -, h⟩ := Option.bind_eq_some_iff.1 h
      obtain ⟨start, -, h⟩ := Option.bind_eq_some_iff.1 h
      obtain ⟨slots, -, h⟩ := Option.bind_eq_some_iff.1 h
      obtain ⟨unitValue, hvalue, h⟩ := Option.bind_eq_some_iff.1 h
      obtain rfl := Option.some.inj h
      exact faithful_real.sound_required hvalue
    · cases h

end RainCounts

namespace Reading

/-- All values are finite. -/
structure Finite (r : Reading α) : Prop where
  values : ∀ m x, r.values.get m = some x → Quantity.isFinite x = true
  rain : ∀ c, r.rain = some c → c.Finite

theorem faithful : Faithful Finite (encode (α := α)) decode? where
  reads {r} hr := by
    have hread : Record.read? fields r.encode =
        some [some (.str r.device), r.source.map .str, some (encodeInstant r.time),
          r.values.temperature.map encodeReal, r.values.humidity.map encodeReal,
          r.values.pressure.map encodeReal, r.rain.map RainCounts.encode] := by
      -- Members that are left out are those of fields without a value.
      refine Record.read?_members ?_ (by decide) rfl
      simp only [encode, member?_eq _ r.source, member?_eq _ r.values.temperature,
        member?_eq _ r.values.humidity, member?_eq _ r.values.pressure, member?_eq _ r.rain,
        fields, Record.members_cons, Record.members_nil, List.append_assoc, List.append_nil]
      rfl
    have htemperature : optional decodeReal? (r.values.temperature.map encodeReal) =
        some r.values.temperature := faithful_real.optional_map rfl (hr.values .temperature)
    have hhumidity : optional decodeReal? (r.values.humidity.map encodeReal) =
        some r.values.humidity := faithful_real.optional_map rfl (hr.values .humidity)
    have hpressure : optional decodeReal? (r.values.pressure.map encodeReal) =
        some r.values.pressure := faithful_real.optional_map rfl (hr.values .pressure)
    simp only [decode?, hread, Option.bind_eq_bind, Option.bind_some, required,
      faithful_str.reads trivial, faithful_str.optional_map rfl fun _ _ => trivial,
      faithful_instant.reads trivial, htemperature, hhumidity, hpressure,
      RainCounts.faithful.optional_map rfl hr.rain]
    rfl
  sound {doc r} h := by
    obtain ⟨fs, -, h⟩ := Option.bind_eq_some_iff.1 h
    split at h
    · obtain ⟨device, -, h⟩ := Option.bind_eq_some_iff.1 h
      obtain ⟨source, -, h⟩ := Option.bind_eq_some_iff.1 h
      obtain ⟨time, -, h⟩ := Option.bind_eq_some_iff.1 h
      obtain ⟨temperature, htemperature, h⟩ := Option.bind_eq_some_iff.1 h
      obtain ⟨humidity, hhumidity, h⟩ := Option.bind_eq_some_iff.1 h
      obtain ⟨pressure, hpressure, h⟩ := Option.bind_eq_some_iff.1 h
      obtain ⟨rain, hrain, h⟩ := Option.bind_eq_some_iff.1 h
      obtain rfl := Option.some.inj h
      refine ⟨fun m x hx => ?_, RainCounts.faithful.sound_optional rfl hrain⟩
      cases m with
      | temperature => exact faithful_real.sound_optional rfl htemperature x hx
      | humidity => exact faithful_real.sound_optional rfl hhumidity x hx
      | pressure => exact faithful_real.sound_optional rfl hpressure x hx
    · cases h

end Reading

/-! ## Views -/

namespace LatestView

/-- All values are finite. -/
structure Finite (v : LatestView α) : Prop where
  values : ∀ m x, v.values.get m = some x → Quantity.isFinite x = true
  rain : ∀ rain, v.rain = some rain → rain.Finite

theorem faithful : Faithful Finite (encode (α := α)) decode? where
  reads {v} hv := by
    have hread : Record.read? fields v.encode =
        some [some (.str v.id.key), some (.str v.id.dateId), some (.str v.device),
          some (encodeInstant v.time), some (.str v.sourceId),
          some (nullable encodeReal v.values.temperature),
          some (nullable encodeReal v.values.humidity),
          some (nullable encodeReal v.values.pressure), some (nullable RainWindow.encode v.rain),
          v.version.map .str] :=
      Record.read?_members (by rw [encode, member?_last ⟨"version", true⟩]; rfl) (by decide) rfl
    have htemperature : optional decodeReal? (some (nullable encodeReal v.values.temperature)) =
        some v.values.temperature := (faithful_real.nullable rfl).reads (hv.values .temperature)
    have hhumidity : optional decodeReal? (some (nullable encodeReal v.values.humidity)) =
        some v.values.humidity := (faithful_real.nullable rfl).reads (hv.values .humidity)
    have hpressure : optional decodeReal? (some (nullable encodeReal v.values.pressure)) =
        some v.values.pressure := (faithful_real.nullable rfl).reads (hv.values .pressure)
    have hrain := (RainWindow.faithful.nullable rfl).reads hv.rain
    simp only [decode?, hread, Option.bind_eq_bind, Option.bind_some, required,
      faithful_str.reads trivial, faithful_str.optional_map rfl fun _ _ => trivial,
      faithful_instant.reads trivial, htemperature, hhumidity, hpressure, hrain]
    rfl
  sound {doc v} h := by
    obtain ⟨fs, -, h⟩ := Option.bind_eq_some_iff.1 h
    split at h
    · obtain ⟨key, -, h⟩ := Option.bind_eq_some_iff.1 h
      obtain ⟨dateId, -, h⟩ := Option.bind_eq_some_iff.1 h
      obtain ⟨device, -, h⟩ := Option.bind_eq_some_iff.1 h
      obtain ⟨time, -, h⟩ := Option.bind_eq_some_iff.1 h
      obtain ⟨source, -, h⟩ := Option.bind_eq_some_iff.1 h
      obtain ⟨temperature, htemperature, h⟩ := Option.bind_eq_some_iff.1 h
      obtain ⟨humidity, hhumidity, h⟩ := Option.bind_eq_some_iff.1 h
      obtain ⟨pressure, hpressure, h⟩ := Option.bind_eq_some_iff.1 h
      obtain ⟨rain, hrain, h⟩ := Option.bind_eq_some_iff.1 h
      obtain ⟨version, -, h⟩ := Option.bind_eq_some_iff.1 h
      obtain rfl := Option.some.inj h
      refine ⟨fun m x hx => ?_, RainWindow.faithful.sound_optional rfl hrain⟩
      cases m with
      | temperature => exact faithful_real.sound_optional rfl htemperature x hx
      | humidity => exact faithful_real.sound_optional rfl hhumidity x hx
      | pressure => exact faithful_real.sound_optional rfl hpressure x hx
    · cases h

end LatestView

/-- The tallies of the hours of a day. -/
theorem HourTallies.faithful :
    Faithful (fun hours : HourTallies α => ∀ k t, hours.find? k = some t → t.Storable)
      encode decode? :=
  Tally.faithful.indexed

/-- All tallies of the window are such that a document can hold them, and all rain is finite. -/
structure WindowView.Storable {g : Granularity} (w : WindowView g α) : Prop where
  tallies : ∀ p t, w.tally? p = some t → t.Storable
  rain : ∀ rain, w.rain = some rain → rain.Finite

theorem HourlyView.faithful :
    Faithful WindowView.Storable (encode (α := α)) decode? where
  reads {w} hw := by
    have hread : Record.read? fields (encode w) =
        some [some (.str w.id.key), some (.str w.id.dateId), some (.str w.device),
          some (encodeInstant w.start), some (encodePerMetric Tally.encode w.tallies),
          some (nullable RainWindow.encode w.rain), some (encodeSet w.applied),
          some (.bool w.isSealed), w.version.map .str] :=
      Record.read?_members
        (by rw [encode, WindowView.tail, member?_last ⟨"version", true⟩]; rfl) (by decide) rfl
    have htallies : decodePerMetric? Tally.decode? (encodePerMetric Tally.encode w.tallies) =
        some w.tallies := Tally.faithful.perMetric.reads fun m t ht => hw.tallies (m, none) t ht
    have hrain := (RainWindow.faithful.nullable rfl).reads hw.rain
    simp only [decode?, hread, Option.bind_eq_bind, Option.bind_some, required, defaulted,
      faithful_str.reads trivial, faithful_str.optional_map rfl fun _ _ => trivial,
      faithful_instant.reads trivial, faithful_set.reads trivial, faithful_bool.reads trivial,
      htallies, hrain]
    rfl
  sound {doc w} h := by
    obtain ⟨fs, -, h⟩ := Option.bind_eq_some_iff.1 h
    split at h
    · obtain ⟨key, -, h⟩ := Option.bind_eq_some_iff.1 h
      obtain ⟨dateId, -, h⟩ := Option.bind_eq_some_iff.1 h
      obtain ⟨device, -, h⟩ := Option.bind_eq_some_iff.1 h
      obtain ⟨start, -, h⟩ := Option.bind_eq_some_iff.1 h
      obtain ⟨tallies, htallies, h⟩ := Option.bind_eq_some_iff.1 h
      obtain ⟨rain, hrain, h⟩ := Option.bind_eq_some_iff.1 h
      obtain ⟨applied, -, h⟩ := Option.bind_eq_some_iff.1 h
      obtain ⟨isSealed, -, h⟩ := Option.bind_eq_some_iff.1 h
      obtain ⟨version, -, h⟩ := Option.bind_eq_some_iff.1 h
      obtain rfl := Option.some.inj h
      refine ⟨fun p t ht => ?_, RainWindow.faithful.sound_optional rfl hrain⟩
      obtain ⟨m, _ | hour⟩ := p
      · exact Tally.faithful.sound_perMetric htallies m t ht
      · cases ht
    · cases h

theorem DailyView.faithful : Faithful WindowView.Storable (encode (α := α)) decode? where
  reads {w} hw := by
    have hread : Record.read? fields (encode w) =
        some [some (.str w.id.key), some (.str w.id.dateId), some (.str w.device),
          some (encodeInstant w.start), some (encodePerMetric Tally.encode w.tallies),
          some (encodePerMetric HourTallies.encode w.detail),
          some (nullable RainWindow.encode w.rain), some (encodeSet w.applied),
          some (.bool w.isSealed), w.version.map .str] :=
      Record.read?_members
        (by rw [encode, WindowView.tail, member?_last ⟨"version", true⟩]; rfl) (by decide) rfl
    have htallies : decodePerMetric? Tally.decode? (encodePerMetric Tally.encode w.tallies) =
        some w.tallies := Tally.faithful.perMetric.reads fun m t ht => hw.tallies (m, none) t ht
    have hhours : decodePerMetric? HourTallies.decode?
        (encodePerMetric HourTallies.encode w.detail) = some w.detail := by
      refine HourTallies.faithful.perMetric.reads fun m hours hm k t ht =>
        hw.tallies (m, some k) t ?_
      show (DailyView.hours w m).find? k = some t
      rw [DailyView.hours, hm]
      exact ht
    have hrain := (RainWindow.faithful.nullable rfl).reads hw.rain
    simp only [decode?, hread, Option.bind_eq_bind, Option.bind_some, required, defaulted,
      faithful_str.reads trivial, faithful_str.optional_map rfl fun _ _ => trivial,
      faithful_instant.reads trivial, faithful_set.reads trivial, faithful_bool.reads trivial,
      htallies, hhours, hrain]
    rfl
  sound {doc w} h := by
    obtain ⟨fs, -, h⟩ := Option.bind_eq_some_iff.1 h
    split at h
    · obtain ⟨key, -, h⟩ := Option.bind_eq_some_iff.1 h
      obtain ⟨dateId, -, h⟩ := Option.bind_eq_some_iff.1 h
      obtain ⟨device, -, h⟩ := Option.bind_eq_some_iff.1 h
      obtain ⟨start, -, h⟩ := Option.bind_eq_some_iff.1 h
      obtain ⟨tallies, htallies, h⟩ := Option.bind_eq_some_iff.1 h
      obtain ⟨detail, hdetail, h⟩ := Option.bind_eq_some_iff.1 h
      obtain ⟨rain, hrain, h⟩ := Option.bind_eq_some_iff.1 h
      obtain ⟨applied, -, h⟩ := Option.bind_eq_some_iff.1 h
      obtain ⟨isSealed, -, h⟩ := Option.bind_eq_some_iff.1 h
      obtain ⟨version, -, h⟩ := Option.bind_eq_some_iff.1 h
      obtain rfl := Option.some.inj h
      refine ⟨fun p t ht => ?_, RainWindow.faithful.sound_optional rfl hrain⟩
      obtain ⟨m, _ | hour⟩ := p
      · exact Tally.faithful.sound_perMetric htallies m t ht
      · have ht : ((detail.get m).getD SortedMap.empty).find? hour = some t := ht
        cases hm : detail.get m with
        | none =>
          rw [hm] at ht
          cases ht
        | some hours =>
          rw [hm] at ht
          exact HourTallies.faithful.sound_perMetric hdetail m hours hm hour t ht
    · cases h

/-! ## Weeks -/

omit [Quantity α] in
theorem IsoWeek.faithful : Faithful (fun _ => True) (encode (α := α)) decode? where
  reads {w} _ := by
    have hread : Record.read? [⟨"year", false⟩, ⟨"week", false⟩] (encode (α := α) w) =
        some [some (encodeInt32 w.year), some (encodeUInt32 w.week)] :=
      Record.read?_members rfl (by decide) rfl
    simp only [decode?, hread, Option.bind_eq_bind, Option.bind_some, required,
      faithful_int32.reads trivial, faithful_uInt32.reads trivial]
    rfl
  sound _ := trivial

namespace WeeklySeries

/-- All values are finite. -/
structure Finite (s : WeeklySeries α) : Prop where
  days : ∀ p d, s.days.get p = some d → d.Finite
  summary : ∀ t, s.summary = some t → t.Finite

theorem seven?_eq_some {β : Type} {l : List β} {v : Vector β 7} :
    seven? l = some v ↔ v.toList = l := by
  rw [seven?]
  constructor
  · intro h
    split_ifs at h
    obtain rfl := Option.some.inj h
    rfl
  · rintro rfl
    rw [dif_pos (by simp)]
    rfl

theorem faithful : Faithful Finite (encode (α := α)) decode? where
  reads {s} hs := by
    have hread : Record.read? [⟨"days", false⟩, ⟨"summary", false⟩] s.encode =
        some [some (encodeList (nullable Summary.encode) s.days.toList),
          some (nullable Summary.encode s.summary)] :=
      Record.read?_members rfl (by decide) rfl
    have hdays : decodeList? (fun v => optional Summary.decode? (some v))
        (encodeList (nullable Summary.encode) s.days.toList) = some s.days.toList := by
      refine (Summary.faithful.nullable rfl).list.reads fun d hd b hb => ?_
      obtain ⟨p, rfl⟩ := mem_days.1 hd
      exact hs.days p b hb
    have hsummary := (Summary.faithful.nullable rfl).reads hs.summary
    simp only [decode?, hread, Option.bind_eq_bind, Option.bind_some, required, hdays,
      seven?_eq_some.2 rfl, hsummary]
    rfl
  sound {doc s} h := by
    obtain ⟨fs, -, h⟩ := Option.bind_eq_some_iff.1 h
    split at h
    · obtain ⟨list, hlist, h⟩ := Option.bind_eq_some_iff.1 h
      obtain ⟨days, hdays, h⟩ := Option.bind_eq_some_iff.1 h
      obtain ⟨summary, hsummary, h⟩ := Option.bind_eq_some_iff.1 h
      obtain rfl := Option.some.inj h
      obtain rfl := seven?_eq_some.1 hdays
      refine ⟨fun p d hd => ?_, Summary.faithful.sound_optional rfl hsummary⟩
      have hmem : some d ∈ days.toList := mem_days.2 ⟨p, hd⟩
      exact (Summary.faithful.nullable rfl).list.sound_required hlist _ hmem d rfl
    · cases h

theorem finite_empty : (empty : WeeklySeries α).Finite := by
  refine ⟨fun p d hd => ?_, fun t ht => by cases ht⟩
  rw [get_empty] at hd
  cases hd

end WeeklySeries

namespace WeeklyView

/-- All values are finite. -/
structure Finite (w : WeeklyView α) : Prop where
  metrics : ∀ m, (w.metrics.get m).Finite
  rain : w.rain.Finite

theorem faithful : Faithful Finite (encode (α := α)) decode? where
  reads {w} hw := by
    have hread : Record.read? fields w.encode =
        some [some (.str w.id.key), some (.str w.id.dateId), some (.str w.device),
          some w.week.encode, some w.metrics.temperature.encode, some w.metrics.humidity.encode,
          some w.metrics.pressure.encode, some w.rain.encode, w.version.map .str] :=
      Record.read?_members (by rw [encode, member?_last ⟨"version", true⟩]; rfl) (by decide) rfl
    have htemperature : WeeklySeries.decode? w.metrics.temperature.encode =
        some w.metrics.temperature := WeeklySeries.faithful.reads (hw.metrics .temperature)
    have hhumidity : WeeklySeries.decode? w.metrics.humidity.encode =
        some w.metrics.humidity := WeeklySeries.faithful.reads (hw.metrics .humidity)
    have hpressure : WeeklySeries.decode? w.metrics.pressure.encode =
        some w.metrics.pressure := WeeklySeries.faithful.reads (hw.metrics .pressure)
    simp only [decode?, hread, Option.bind_eq_bind, Option.bind_some, required, defaulted,
      faithful_str.reads trivial, faithful_str.optional_map rfl fun _ _ => trivial,
      IsoWeek.faithful.reads trivial, htemperature, hhumidity, hpressure,
      WeeklySeries.faithful.reads hw.rain]
    rfl
  sound {doc w} h := by
    obtain ⟨fs, -, h⟩ := Option.bind_eq_some_iff.1 h
    split at h
    · obtain ⟨key, -, h⟩ := Option.bind_eq_some_iff.1 h
      obtain ⟨dateId, -, h⟩ := Option.bind_eq_some_iff.1 h
      obtain ⟨device, -, h⟩ := Option.bind_eq_some_iff.1 h
      obtain ⟨week, -, h⟩ := Option.bind_eq_some_iff.1 h
      obtain ⟨temperature, htemperature, h⟩ := Option.bind_eq_some_iff.1 h
      obtain ⟨humidity, hhumidity, h⟩ := Option.bind_eq_some_iff.1 h
      obtain ⟨pressure, hpressure, h⟩ := Option.bind_eq_some_iff.1 h
      obtain ⟨rain, hrain, h⟩ := Option.bind_eq_some_iff.1 h
      obtain ⟨version, -, h⟩ := Option.bind_eq_some_iff.1 h
      obtain rfl := Option.some.inj h
      have hseries {field : Option (Json α)} {s : WeeklySeries α}
          (hs : defaulted .empty WeeklySeries.decode? field = some s) : s.Finite :=
        WeeklySeries.faithful.sound_defaulted WeeklySeries.finite_empty hs
      refine ⟨fun m => ?_, hseries hrain⟩
      cases m with
      | temperature => exact hseries htemperature
      | humidity => exact hseries hhumidity
      | pressure => exact hseries hpressure
    · cases h

end WeeklyView

/-! ## Any view -/

namespace View

/-- What a document of a view can hold: finite values, and tallies that have values while they are
    active and whose extremes are in order. -/
def Storable : View α → Prop
  | latest v => v.Finite
  | hourly w => WindowView.Storable w
  | daily w => WindowView.Storable w
  | weekly w => w.Finite

theorem faithful : Faithful Storable (encode (α := α)) decode? where
  reads {v} hv := by
    cases v with
    | latest v =>
      exact congrArg (Option.map latest) (LatestView.faithful.reads hv)
    | hourly w => exact congrArg (Option.map hourly) (HourlyView.faithful.reads hv)
    | daily w => exact congrArg (Option.map daily) (DailyView.faithful.reads hv)
    | weekly w => exact congrArg (Option.map weekly) (WeeklyView.faithful.reads hv)
  sound {doc v} h := by
    rw [decode?.eq_def] at h
    split at h
    · dsimp only at h
      split_ifs at h
      · obtain ⟨v, hv, rfl⟩ := Option.map_eq_some_iff.1 h
        exact LatestView.faithful.sound hv
      · obtain ⟨w, hw, rfl⟩ := Option.map_eq_some_iff.1 h
        exact HourlyView.faithful.sound hw
      · obtain ⟨w, hw, rfl⟩ := Option.map_eq_some_iff.1 h
        exact DailyView.faithful.sound hw
      · obtain ⟨w, hw, rfl⟩ := Option.map_eq_some_iff.1 h
        exact WeeklyView.faithful.sound hw
    · cases h

end View

/-- Views whose numbers are finite and whose tallies are proper are read back from their documents,
    and so are readings and rain reports whose numbers are finite. Conversely, every document that
    is read as a view gives such a view, which is read back from its own document. -/
theorem documents_read_back :
    (∀ v : View α, v.Storable → View.decode? v.encode = some v) ∧
    (∀ r : Reading α, r.Finite → Reading.decode? r.encode = some r) ∧
    (∀ c : RainCounts α, c.Finite → RainCounts.decode? c.encode = some c) ∧
    ∀ (doc : Json α) (v : View α), View.decode? doc = some v →
      v.Storable ∧ View.decode? v.encode = some v := by
  refine ⟨fun v hv => View.faithful.reads hv, fun r hr => Reading.faithful.reads hr,
    fun c hc => RainCounts.faithful.reads hc, fun doc v h => ?_⟩
  have hv := View.faithful.sound h
  exact ⟨hv, View.faithful.reads hv⟩

/-- The document of an hour that is not as this library writes it: its members stand in another
    order, some are left out, whole numbers stand for real ones and a source is named twice. -/
def hourDocument : Json ℚ :=
  .object [("hourly", .object
    [("device_id", .str "dev"), ("key", .str "dev|hourly|2025-09-11T15"),
     ("date_id", .str "H2025-09-11T15"), ("hour_start", .str "2025-09-11 17:00:00+02:00"),
     ("applied_sources", .arr [.str "b", .str "a", .str "b"]), ("rain", .null),
     ("metrics", .object
       [("pressure", .object [("avg", .int 1013), ("min", .int 1010), ("max", .int 1020)]),
        ("temperature", .object
          [("min", .int 10), ("max", .real (41 / 2)), ("count", .int 2),
           ("sum", .real (61 / 2))])])])]

/-- The hour of the document. -/
def hourOfDocument : HourlyView ℚ where
  id := ⟨"dev|hourly|2025-09-11T15", "H2025-09-11T15"⟩
  device := "dev"
  start := ⟨1757602800, 0, by decide, by decide, by decide, by decide⟩
  tallies := ⟨some (.active (61 / 2) 2 10 (41 / 2)), none, some (.closed ⟨1010, 1020, 1013⟩)⟩
  detail := ()
  rain := none
  applied := SortedSet.ofList ["a", "b"]
  isSealed := false
  version := none

/-- A reading of the hour, with rain in two slots of five minutes. -/
def readingOfHour : Reading ℚ where
  device := "dev"
  source := none
  time := hourOfDocument.start
  values := ⟨some 10, none, none⟩
  rain := some ⟨SortedMap.ofList [(3, 7), (12, 1)], 300, hourOfDocument.start, none, 3 / 10⟩

theorem hour_read_back :
    View.decode? hourDocument = some (.hourly hourOfDocument) ∧
      (View.hourly hourOfDocument).Storable ∧
        View.decode? (View.hourly hourOfDocument).encode = some (.hourly hourOfDocument) ∧
          Reading.decode? readingOfHour.encode = some readingOfHour ∧
            ∀ c, readingOfHour.rain = some c → RainCounts.decode? c.encode = some c := by
  obtain ⟨hview, hreading, hrain, hdocument⟩ := documents_read_back (α := ℚ)
  have h : View.decode? hourDocument = some (.hourly hourOfDocument) := by
    decide +kernel
  have hstorable := (hdocument _ _ h).1
  exact ⟨h, hstorable, hview _ hstorable, hreading _ ⟨fun _ _ _ => rfl, fun _ _ => rfl⟩,
    fun c _ => hrain c rfl⟩

end WeatherStation
