import WeatherStation.View.Basic

/-!
# The store

Views by key, each with the version of its last write. Versions count up over all writes, so a
version names one write of one view.

* `Store.write`: a write under a condition on the version that the key holds.
* `Store.page`: the open days before an instant, oldest first, page by page.
-/

namespace WeatherStation

/-- Why a store does not answer a call. -/
inductive StoreError where
  /-- The condition of a write does not hold. -/
  | conflict (key : String)
  /-- The key holds a view of another kind. -/
  | wrongKind (key : String) (expected found : ViewKind)
  /-- The store is locked. -/
  | lock
  /-- The storage below failed. -/
  | storage (text : String)
  deriving DecidableEq

namespace StoreError

/-- The wording of a store's refusal. -/
def message : StoreError → String
  | conflict key => "Version conflict on " ++ key
  | wrongKind key expected found =>
    "Key " ++ key ++ " holds a " ++ found.name ++ " view, expected " ++ expected.name
  | lock => "Failed to acquire lock on aggregate store"
  | storage text => "Storage error: " ++ text

/-- Whether a write lost against another writer. -/
def isConflict : StoreError → Bool
  | conflict _ => true
  | _ => false

end StoreError

/-- What a write asks of the view that its key holds. -/
inductive WriteCondition where
  /-- Nothing: the last write wins. -/
  | always
  /-- There is none. -/
  | absent
  /-- It has a version. -/
  | current (version : Version)
  deriving DecidableEq

/-- The condition that nothing was written since a view with this version was read, or since there
    was none. -/
def WriteCondition.expecting : Option Version → WriteCondition
  | some v => .current v
  | none => .absent

/-- The place of a day in the order of open days. -/
structure Cursor where
  start : Instant
  key : String
  deriving DecidableEq

/-- Consecutive open days, and where to go on if there are more. -/
structure Page (α : Type) where
  days : List (DailyView α)
  next : Option Cursor
  deriving DecidableEq

/-- Stored views. -/
structure Store (α : Type) where
  views : SortedMap String (View α)
  /-- The number of the next version, without a bound. A counter of 64 bits comes to the same for
      fewer than `2 ^ 64 - 1` writes. `Ledger.ofCallsWord_eq` shows this of lists of writes only;
      the other requests do not move the counter. -/
  nextVersion : Nat
  deriving DecidableEq

namespace Store

variable {α : Type}

/-- The store without views. -/
def empty : Store α := ⟨SortedMap.empty, 1⟩

/-- The view under a key. -/
def get? (s : Store α) (key : String) : Option (View α) := s.views.find? key

/-- Whether a write under a key is allowed. -/
def allows (s : Store α) (key : String) : WriteCondition → Bool
  | .always => true
  | .absent => (s.get? key).isNone
  | .current v => (s.get? key).bind View.version == some v

/-- The version of the next write. -/
def freshVersion (s : Store α) : Version := Text.natText s.nextVersion

/-- The store after a write that was allowed. -/
def put (s : Store α) (v : View α) : Store α :=
  ⟨s.views.insert v.key (v.withVersion (some s.freshVersion)), s.nextVersion + 1⟩

/-- Writes a view under its key, if the condition holds. -/
def write (s : Store α) (v : View α) (condition : WriteCondition) :
    Except StoreError (Version × Store α) :=
  if s.allows v.key condition then .ok (s.freshVersion, s.put v) else .error (.conflict v.key)

/-- The days that are open, start before `cutoff` and come after the cursor, in order. -/
def openDays (s : Store α) (cutoff : Instant) (cursor : Option Cursor) :
    SortedMap (Instant × String) (DailyView α) :=
  let fits (d : DailyView α) : Bool :=
    !d.isSealed && d.start < cutoff
      && cursor.all fun c => Key.before (c.start, c.key) (d.start, d.id.key)
  SortedMap.ofList
    (((s.views.values.filterMap View.daily?).filter fits).map fun d => ((d.start, d.id.key), d))

/-- The first `size` of these days. There is a next page if days are left over. -/
def page (s : Store α) (cutoff : Instant) (size : Nat) (cursor : Option Cursor) : Page α :=
  let days := (s.openDays cutoff cursor).values
  let first := days.take size
  ⟨first, if size < days.length then first.getLast?.map fun d => ⟨d.start, d.id.key⟩ else none⟩

/-- The views under some keys, in the order of the keys. -/
def readMany (s : Store α) (keys : List String) : List (View α) := keys.filterMap s.get?

@[simp] theorem get?_put_self (s : Store α) (v : View α) :
    (s.put v).get? v.key = some (v.withVersion (some s.freshVersion)) := by
  simp [put, get?]

theorem get?_put_ne (s : Store α) (v : View α) {key : String} (h : key ≠ v.key) :
    (s.put v).get? key = s.get? key := by
  simp only [put, get?]
  exact s.views.find?_insert_ne h _

end Store

end WeatherStation
