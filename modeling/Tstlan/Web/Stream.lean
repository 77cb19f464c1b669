import Tstlan.Devices.Routes
import Tstlan.Foundations.EventStream
import Tstlan.Foundations.Ieee
import Tstlan.Foundations.JsonText
import Tstlan.Foundations.PyNumber
import Tstlan.Foundations.Rounding
import Tstlan.Web.Monitor

/-! # The stream of values, from the server to the page (`devices/routes.py`, `lib/api.ts`)

The server writes each reading of a device as one event of JSON; the browser takes the events out of the characters
that arrive, and the page takes the readings out of the events. Any number of connections follow one another, each cut
off anywhere. The page is gone after a reading of a variable called like what every object inherits. -/
namespace Tstlan.Web
open Foundations
open Foundations.Binary (Double)
set_option autoImplicit false

/-- How doubles travel. -/
structure Wire where
  /-- `float.__repr__`. -/
  repr : Double → List Char
  /-- The Number of a numeral in JSON. -/
  number : List Char → Double
  /-- What `model_dump(mode="json")` makes of a double. -/
  dumped : Double → JsonValue Double
  repr_number : ∀ x, x.isFinite = true → Json.isNumber (repr x) = true
  number_repr : ∀ x, x.isFinite = true → number (repr x) = x
  number_integer : ∀ n, number (Json.writeInt n) = Binary.nearestInteger n
  dumped_finite : ∀ x, x.isFinite = true → dumped x = .float x

namespace Wire
variable (wire : Wire)

/-- A float in `json.dumps`. -/
def writeFloat (x : Double) : List Char :=
  if x.isFinite then wire.repr x
  else if x.isNaN then "NaN".toList
  else if x.sign = 0 then "Infinity".toList
  else "-Infinity".toList

/-- What `JSON.parse` makes of a numeral. -/
def readNumber (token : List Char) : JsonValue Double := .float (wire.number token)

/-- A number as the model holds it; the model has no Booleans. -/
def dumpNumber : Number → JsonValue Double
  | .int n => .int n
  | .bool b => .int (if b then 1 else 0)
  | .float x => wire.dumped x

/-- The number as the page holds it; none where it is written as no number. -/
def shown (n : Number) : Option (JsonValue Double) := Json.received wire.writeFloat wire.readNumber (wire.dumpNumber n)

def dumpValue (v : Tstlan.VariableValue) : JsonValue Double :=
  .dict [("name", .str v.name), ("ctype", .str v.ctype.text), ("value", wire.dumpNumber v.value)]

end Wire

/-- What is read of a device, and when. -/
structure Reading where
  t : ServerTime
  values : List Tstlan.VariableValue

namespace Reading
variable (wire : Wire)

def event (r : Reading) : JsonValue Double :=
  .dict [("t", .float r.t.seconds), ("values", .list (r.values.map wire.dumpValue))]

/-- What `value_event_stream` yields. -/
def frame (r : Reading) : List Char := EventStream.frame (Json.write wire.writeFloat (r.event wire))

end Reading

/-! ## The page -/

inductive Connection
  | connecting
  | live
  | lost
  deriving DecidableEq

/-- What the page keeps of a device; a value is whatever JSON has in its place. -/
structure DevicePage where
  monitor : Monitor (JsonValue Double)
  connection : Connection

/-- An item of `data.values`. -/
def valueOf (item : JsonValue Double) : Option (VariableValue (JsonValue Double)) :=
  match item.member? "name", item.member? "value" with
  | some (.str name), some value => some ⟨name, value⟩
  | _, _ => none

/-- `data.values` and `data.t`. -/
def dataOf (data : JsonValue Double) : Option (Double × List (VariableValue (JsonValue Double))) :=
  match data.member? "t", data.member? "values" with
  | some (.float t), some (.list items) => (items.mapM valueOf).map (fun values => (t, values))
  | _, _ => none

namespace DevicePage
variable (wire : Wire)

/-- The callback of the page, none when it throws within an update of the state, which ends the page. -/
def onSnapshot (page : DevicePage) (snapshot : List (VariableValue (JsonValue Double))) (t : Double) :
    Option DevicePage :=
  (page.monitor.onSnapshot snapshot (mathRound (t.mul thousand))).map (fun monitor => ⟨monitor, .live⟩)

/-- The handler of messages; a text that is no reading changes nothing. -/
def onMessage (page : DevicePage) (data : List Char) : Option DevicePage :=
  match (Json.parse wire.readNumber data).bind dataOf with
  | none => some page
  | some (t, values) => page.onSnapshot values t

def onEvent (page : DevicePage) (event : EventStream.Event) : Option DevicePage :=
  if event.type = "message".toList then page.onMessage wire event.data else some page

def onError (page : DevicePage) : DevicePage := { page with connection := .lost }

end DevicePage

/-- One connection: what the server reads until it ends, and the chunks that arrive. -/
structure Visit (wire : Wire) where
  readings : List Reading
  chunks : List (List Char)
  cut : chunks.flatten <+: readings.flatMap (Reading.frame wire)

namespace DevicePage
variable {wire : Wire}

/-- The page after the chunks of a connection, the last event of which is its end. -/
def afterVisit (page : DevicePage) (v : Visit wire) : Option DevicePage :=
  ((v.chunks.foldl EventStream.Parser.feedChunk ({}, [])).2.foldlM (DevicePage.onEvent wire) page).map onError

/-- A reading that arrives as a whole. -/
def onReading (wire : Wire) (page : DevicePage) (r : Reading) : Option DevicePage :=
  match r.values.mapM (fun v => (wire.shown v.value).map (VariableValue.mk v.name)) with
  | none => some page
  | some values => page.onSnapshot values r.t.seconds

end DevicePage

/-- The readings whose event has arrived whole. -/
def delivered (wire : Wire) : List Reading → List Char → List Reading
  | [], _ => []
  | r :: rs, cs =>
    if (r.frame wire).isPrefixOf cs then r :: delivered wire rs (cs.drop (r.frame wire).length) else []

/-! ## One event -/

section
variable {wire : Wire}

theorem writes (wire : Wire) : Json.Writes wire.writeFloat := by
  intro x
  unfold Wire.writeFloat
  by_cases hx : x.isFinite = true
  · rw [if_pos hx]
    exact .inl (wire.repr_number x hx)
  · rw [if_neg hx]
    refine .inr ?_
    split
    · simp [Json.nonNumbers]
    · split <;> simp [Json.nonNumbers]

theorem isNumber_writeFloat (wire : Wire) (x : Double) : Json.isNumber (wire.writeFloat x) = x.isFinite := by
  unfold Wire.writeFloat
  by_cases hx : x.isFinite = true
  · rw [if_pos hx, hx]
    exact wire.repr_number x hx
  · rw [if_neg hx, Bool.eq_false_iff.mpr hx]
    split
    · rfl
    · split <;> rfl

theorem readNumber_writeFloat (wire : Wire) {x : Double} (hx : x.isFinite = true) :
    wire.readNumber (wire.writeFloat x) = .float x := by
  rw [Wire.readNumber, Wire.writeFloat, if_pos hx, wire.number_repr x hx]

theorem received_dumpValue (wire : Wire) (v : Tstlan.VariableValue) :
    (Json.received wire.writeFloat wire.readNumber (wire.dumpValue v)).bind valueOf =
      (wire.shown v.value).map (VariableValue.mk v.name) := by
  unfold Wire.dumpValue Wire.shown
  cases hvalue : Json.received wire.writeFloat wire.readNumber (wire.dumpNumber v.value) with
  | none => simp [Json.received, Json.receivedDict, hvalue]
  | some value =>
    simp only [Json.received, Json.receivedDict, hvalue, Option.map_some]
    rfl

theorem onMessage_write (wire : Wire) (page : DevicePage) (r : Reading) :
    page.onMessage wire (Json.write wire.writeFloat (r.event wire)) = page.onReading wire r := by
  have hparse : Json.parse wire.readNumber (Json.write wire.writeFloat (r.event wire) ++ []) =
      Json.received wire.writeFloat wire.readNumber (r.event wire) := Json.parse_write (writes wire) _ rfl
  have hitems : ((r.values.map wire.dumpValue).mapM (Json.received wire.writeFloat wire.readNumber)).bind (List.mapM valueOf) =
      r.values.mapM (fun v => (wire.shown v.value).map (VariableValue.mk v.name)) := by
    rw [mapM_bind, List.mapM_map]
    exact congrArg (fun f => r.values.mapM f) (funext (received_dumpValue wire))
  have hfinite := (Double.finite_of_mul r.t.finite).1
  have htime := readNumber_writeFloat wire hfinite
  have hevent : (Json.received wire.writeFloat wire.readNumber (r.event wire)).bind dataOf =
      (r.values.mapM (fun v => (wire.shown v.value).map (VariableValue.mk v.name))).map (fun values => (r.t.seconds, values)) := by
    rw [← hitems]
    unfold Reading.event
    simp only [Json.received, Json.receivedDict, Json.receivedItems_eq, isNumber_writeFloat, hfinite, if_true, htime]
    cases (r.values.map wire.dumpValue).mapM (Json.received wire.writeFloat wire.readNumber) with
    | none => rfl
    | some items => rfl
  rw [List.append_nil] at hparse
  unfold DevicePage.onMessage DevicePage.onReading
  rw [hparse, hevent]
  cases r.values.mapM (fun v => (wire.shown v.value).map (VariableValue.mk v.name)) with
  | none => rfl
  | some values => rfl

/-! ## Numbers -/

/-- The Number that the page gets for a number of the server. -/
def numberOf : Number → Double
  | .int n => Binary.nearestInteger n
  | .bool b => Binary.nearestInteger (if b then 1 else 0)
  | .float x => x

theorem shown_of_finite {n : Number} (h : n.Finite) : wire.shown n = some (.float (numberOf n)) := by
  cases n with
  | int n =>
    simp only [Wire.shown, Wire.dumpNumber, Json.received, Wire.readNumber, wire.number_integer, numberOf]
  | bool b =>
    simp only [Wire.shown, Wire.dumpNumber, Json.received, Wire.readNumber, wire.number_integer, numberOf]
  | float x =>
    have hx : x.isFinite = true := h
    simp only [Wire.shown, Wire.dumpNumber, wire.dumped_finite x hx, Json.received, isNumber_writeFloat, hx, if_true,
      numberOf, readNumber_writeFloat wire hx]

theorem shown_of_not_finite {x : Double} (hx : x.isFinite = false) (hdumped : wire.dumped x = .float x) :
    wire.shown (.float x) = none := by
  simp only [Wire.shown, Wire.dumpNumber, hdumped, Json.received, isNumber_writeFloat, hx]
  rfl

/-- What the page holds of a reading of finite numbers. -/
def Reading.shown (r : Reading) : List (VariableValue (JsonValue Double)) :=
  r.values.map (fun v => ⟨v.name, .float (numberOf v.value)⟩)

theorem onReading_finite (page : DevicePage) {r : Reading} (h : ∀ v ∈ r.values, v.value.Finite) :
    page.onReading wire r =
      (page.monitor.onSnapshot r.shown (milliseconds r.t)).map (fun monitor => ⟨monitor, .live⟩) := by
  unfold DevicePage.onReading
  rw [mapM_of_forall (g := fun v => VariableValue.mk v.name (.float (numberOf v.value)))
    (fun v hv => by rw [shown_of_finite (h v hv)]; rfl)]
  rfl

/-- A reading of finite numbers is shown whole. -/
theorem onReading_shown (page : DevicePage) {r : Reading} (h : ∀ v ∈ r.values, v.value.Finite)
    (hnames : ∀ v ∈ r.values, v.name ∉ objectPrototype) :
    page.onReading wire r = some ⟨page.monitor.shows r.shown (milliseconds r.t), .live⟩ := by
  have hshown : ∀ v ∈ r.shown, v.name ∉ objectPrototype := List.forall_mem_map.mpr hnames
  rw [onReading_finite page h, Monitor.onSnapshot_of_plain _ hshown]
  rfl

theorem onReading_throws {page : DevicePage} (hpage : page.monitor.Plain) {r : Reading}
    (h : ∀ v ∈ r.values, v.value.Finite) {v : Tstlan.VariableValue} (hv : v ∈ r.values) (hname : v.name ∈ objectPrototype) :
    page.onReading wire r = none := by
  have hshown : (⟨v.name, .float (numberOf v.value)⟩ : VariableValue (JsonValue Double)) ∈ r.shown := List.mem_map_of_mem hv
  rw [onReading_finite page h, Monitor.onSnapshot_eq_none hpage hshown hname]
  rfl

/-- A reading with a number that JSON does not have is not shown at all. -/
theorem onReading_not_finite (page : DevicePage) {r : Reading} {v : Tstlan.VariableValue} {x : Double} (hv : v ∈ r.values)
    (hvalue : v.value = .float x) (hx : x.isFinite = false) (hdumped : wire.dumped x = .float x) :
    page.onReading wire r = some page := by
  unfold DevicePage.onReading
  rw [mapM_eq_none hv (by rw [hvalue, shown_of_not_finite hx hdumped]; rfl)]

/-! ## A connection -/

theorem inLine_write (v : JsonValue Double) : EventStream.InLine (Json.write wire.writeFloat v) :=
  ⟨Json.control_not_mem_write (writes wire) (by decide) _ v (Nat.lt_succ_self _),
    Json.control_not_mem_write (writes wire) (by decide) _ v (Nat.lt_succ_self _)⟩

theorem delivered_eq_take {readings : List Reading} {cs : List Char} {k : ℕ}
    (hk : (readings.take k).flatMap (Reading.frame wire) <+: cs)
    (hnext : k < readings.length → ¬ (readings.take (k + 1)).flatMap (Reading.frame wire) <+: cs) :
    delivered wire readings cs = readings.take k := by
  induction readings generalizing k cs with
  | nil => simp [delivered]
  | cons r rs ih =>
    cases k with
    | zero =>
      have hnot : ¬ r.frame wire <+: cs := by simpa using hnext (by simp)
      rw [delivered, if_neg (fun h => hnot (List.isPrefixOf_iff_prefix.mp h)), List.take_zero]
    | succ k =>
      rw [List.take_succ_cons, List.flatMap_cons] at hk hnext
      obtain ⟨rest, rfl⟩ := (List.prefix_append _ _).trans hk
      have hrest := ih ((List.prefix_append_right_inj _).mp hk)
        (fun hlt h => hnext (Nat.succ_lt_succ hlt) ((List.prefix_append_right_inj _).mpr h))
      rw [delivered, if_pos (List.isPrefixOf_iff_prefix.mpr (List.prefix_append _ _)), List.drop_left, hrest,
        List.take_succ_cons]

theorem delivered_initial (readings : List Reading) (cs : List Char) : delivered wire readings cs <+: readings := by
  induction readings generalizing cs with
  | nil => exact List.prefix_rfl
  | cons r rs ih =>
    unfold delivered
    split
    · exact List.cons_prefix_cons.mpr ⟨rfl, ih _⟩
    · exact List.nil_prefix

theorem delivered_body (readings : List Reading) :
    delivered wire readings (readings.flatMap (Reading.frame wire)) = readings := by
  have h : delivered wire readings (readings.flatMap (Reading.frame wire)) = readings.take readings.length :=
    delivered_eq_take (by simp) (by simp)
  rw [h, List.take_length]

theorem onEvent_message (page : DevicePage) (r : Reading) :
    page.onEvent wire ⟨"message".toList, Json.write wire.writeFloat (r.event wire)⟩ = page.onReading wire r := by
  rw [DevicePage.onEvent, if_pos rfl, onMessage_write]

theorem afterVisit_eq (page : DevicePage) (v : Visit wire) :
    page.afterVisit v =
      ((delivered wire v.readings v.chunks.flatten).foldlM (DevicePage.onReading wire) page).map DevicePage.onError := by
  have hbody : v.readings.flatMap (Reading.frame wire) =
      (v.readings.map (fun r => Json.write wire.writeFloat (r.event wire))).flatMap EventStream.frame := by
    rw [List.flatMap_map]
    rfl
  obtain ⟨k, hk, hnext, hevents⟩ := EventStream.feed_frames
    (v.readings.map (fun r => Json.write wire.writeFloat (r.event wire))) (by
      intro m hm
      obtain ⟨r, -, rfl⟩ := List.mem_map.mp hm
      exact inLine_write _) (hbody ▸ v.cut)
  have htake (n : ℕ) : ((v.readings.map (fun r => Json.write wire.writeFloat (r.event wire))).take n).flatMap
      EventStream.frame = (v.readings.take n).flatMap (Reading.frame wire) := by
    rw [← List.map_take, List.flatMap_map]
    rfl
  rw [htake] at hk hnext
  rw [List.length_map] at hnext
  unfold DevicePage.afterVisit
  rw [EventStream.foldl_feedChunk, List.nil_append, hevents, delivered_eq_take hk hnext, ← List.map_take, List.map_map,
    List.foldlM_map]
  exact congrArg (fun f => ((v.readings.take k).foldlM f page).map DevicePage.onError)
    (funext fun p => funext fun r => onEvent_message p r)

/-- Through any connections, the page shows exactly the readings whose event arrived whole, one after another: each
with all its numbers when they are finite, an integer as the double nearest to it, which is the integer itself up to
`2 ^ 53`; and not at all when one of them is left as it is and is not. A shown reading of a variable that is called like
what every object inherits ends the page. -/
theorem stream_shown (wire : Wire) (page : DevicePage) (visits : List (Visit wire)) :
    visits.foldlM DevicePage.afterVisit page = visits.foldlM (fun page v =>
      ((delivered wire v.readings v.chunks.flatten).foldlM (DevicePage.onReading wire) page).map DevicePage.onError) page ∧
    (∀ v ∈ visits, delivered wire v.readings v.chunks.flatten <+: v.readings ∧
      (v.chunks.flatten = v.readings.flatMap (Reading.frame wire) →
        delivered wire v.readings v.chunks.flatten = v.readings)) ∧
    (∀ (page : DevicePage) (r : Reading), (∀ v ∈ r.values, v.value.Finite) →
      ((∀ v ∈ r.values, v.name ∉ objectPrototype) →
        page.onReading wire r = some ⟨page.monitor.shows r.shown (milliseconds r.t), .live⟩) ∧
      (page.monitor.Plain → (∃ v ∈ r.values, v.name ∈ objectPrototype) → page.onReading wire r = none)) ∧
    (∀ (page : DevicePage) (r : Reading) (v : Tstlan.VariableValue) (x : Double), v ∈ r.values → v.value = .float x →
      x.isFinite = false → wire.dumped x = .float x → page.onReading wire r = some page) ∧
    (∀ x : Double, numberOf (.float x) = x) ∧
    ∀ n : ℤ, n.natAbs ≤ 2 ^ 53 → (numberOf (.int n)).scaled = n * 2 ^ 1074 := by
  refine ⟨?_, fun v _ => ⟨delivered_initial _ _, fun h => ?_⟩,
    fun page r h => ⟨onReading_shown page h, fun hpage ⟨v, hv, hname⟩ => onReading_throws hpage h hv hname⟩,
    fun page r v x hv hvalue hx hdumped => onReading_not_finite page hv hvalue hx hdumped, fun _ => rfl,
    fun n h => Binary.scaled_nearestInteger h⟩
  · exact congrArg (fun f => visits.foldlM f page) (funext fun p => funext fun v => afterVisit_eq p v)
  · rw [h, delivered_body]

end

/-! ## A connection that is cut -/

theorem noDigit_point : Json.NoDigit ".0".toList := rfl

theorem isNumber_pattern (n : ℕ) : Json.isNumber (Nat.toDigits 10 n ++ ".0".toList) = true := by
  have hchars : (Nat.toDigits 10 n ++ ".0".toList).all Json.isNumberChar = true := by
    rw [List.all_append, Json.all_toDigits]
    rfl
  refine Json.isNumber_of_isUnsigned hchars ?_
  rw [Json.isUnsigned_append n noDigit_point]
  rfl

/-- A double is written as its bit pattern, with a point. -/
def patternRepr (x : Double) : List Char := Nat.toDigits 10 x.toNat ++ ".0".toList

def patternNumber (token : List Char) : Double :=
  if '.' ∈ token then BitVec.ofNat 64 (Nat.ofDigitChars 10 (token.takeWhile Char.isDigit) 0)
  else
    match token with
    | '-' :: digits => Binary.nearestInteger (-Nat.ofDigitChars 10 digits 0)
    | digits => Binary.nearestInteger (Nat.ofDigitChars 10 digits 0)

theorem patternNumber_repr (x : Double) : patternNumber (patternRepr x) = x := by
  have hpoint : '.' ∈ Nat.toDigits 10 x.toNat ++ ".0".toList := List.mem_append_right _ (by decide)
  unfold patternRepr patternNumber
  rw [if_pos hpoint, Json.takeWhile_toDigits _ noDigit_point, Nat.ofDigitChars_ten_toDigits, BitVec.ofNat_toNat,
    BitVec.setWidth_eq]

theorem patternNumber_writeInt (n : ℤ) : patternNumber (Json.writeInt n) = Binary.nearestInteger n := by
  have hpoint (m : ℕ) : '.' ∉ Nat.toDigits 10 m := by
    intro h
    have hdigit := Json.isDigit_toDigits h
    revert hdigit
    decide
  cases n with
  | ofNat m =>
    obtain ⟨c, cs, hcs, hc⟩ := Json.toDigits_cons m
    have hminus : c ≠ '-' := by
      rintro rfl
      cases hc
    rw [Json.writeInt]
    unfold patternNumber
    rw [if_neg (hpoint m)]
    have hread := @Nat.ofDigitChars_ten_toDigits m
    rw [hcs] at hread ⊢
    split
    · next he => exact absurd (List.cons.inj he).1 hminus
    · rw [hread]
      rfl
  | negSucc m =>
    rw [Json.writeInt]
    unfold patternNumber
    rw [if_neg (fun h => (List.mem_cons.mp h).elim (by decide) (hpoint (m + 1)))]
    simp only [Nat.ofDigitChars_ten_toDigits]
    rfl

def Wire.patterns : Wire where
  repr := patternRepr
  number := patternNumber
  dumped := .float
  repr_number x _ := isNumber_pattern x.toNat
  number_repr x _ := patternNumber_repr x
  number_integer := patternNumber_writeInt
  dumped_finite _ _ := rfl

/-- Two readings of one variable, the event of the second of which breaks off. -/
def cutReadings : List Reading :=
  [⟨oneSecond, [⟨"level", .U16, .int 7⟩]⟩, ⟨twoSeconds, [⟨"level", .U16, .int 8⟩]⟩]

def cutVisit : Visit Wire.patterns where
  readings := cutReadings
  chunks := [((cutReadings.flatMap (Reading.frame Wire.patterns)).take 20),
    ((cutReadings.flatMap (Reading.frame Wire.patterns)).drop 20).dropLast]
  cut := by decide +kernel

/-- The first reading is shown, and the second one is not. -/
theorem cutVisit_shown : ∃ page, [cutVisit].foldlM DevicePage.afterVisit ⟨.init, .connecting⟩ = some page ∧
    page.connection = .lost ∧ (page.monitor.series "level").map Sample.t = [1000] := by
  rw [(stream_shown Wire.patterns ⟨.init, .connecting⟩ [cutVisit]).1]
  have hshown : ([cutVisit].foldlM (fun page v => ((delivered Wire.patterns v.readings v.chunks.flatten).foldlM
      (DevicePage.onReading Wire.patterns) page).map DevicePage.onError) (⟨.init, .connecting⟩ : DevicePage)).map
      (fun page => (page.connection, (page.monitor.series "level").map Sample.t)) = some (.lost, [1000]) := by
    decide +kernel
  obtain ⟨page, hpage, hkept⟩ := Option.map_eq_some_iff.mp hshown
  exact ⟨page, hpage, congrArg Prod.fst hkept, congrArg Prod.snd hkept⟩

end Tstlan.Web
