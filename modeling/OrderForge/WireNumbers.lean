/-
This file settles what becomes of the prices and quantities that go over the wire. The
feeds write a raw value divided by the scale; the constructor from a double multiplies
by the scale and truncates. Both operations round, so what is read is the raw value or
the next one toward zero: a price of 0.29 is read as 0.28.

A subscriber that tries the neighbours of what the constructor makes reads every raw
value of at most 52 bits, so over any run it reads every event of a feed but that of the
last trades.
-/

import OrderForge.RoundingError
import OrderForge.Subscriber

namespace OrderForge

/-- What an integral type promises of small integers: a raw value is read back from the integer it
is, and a type with a negative value has all small integers. -/
class FaithfulIntegralType (Raw : Type) [IntegralType Raw] : Prop where
  ofInt_toInt : ∀ raw : Raw, IntegralType.ofInt (IntegralType.toInt raw) = raw
  toInt_ofInt : ∀ {raw : Raw}, IntegralType.toInt raw < 0 → ∀ {number : Int},
    number.natAbs < 2 ^ 53 → IntegralType.toInt (IntegralType.ofInt number : Raw) = number

instance : FaithfulIntegralType Int64 where
  ofInt_toInt := Int64.ofInt_toInt
  toInt_ofInt {_} _ {number} small := by
    have size : Int64.size = 2 ^ 64 := rfl
    change (Int64.ofInt number).toInt = number
    rw [Int64.toInt_ofInt, size]
    exact Int.bmod_eq_of_le (by omega) (by omega)

instance : FaithfulIntegralType UInt64 where
  ofInt_toInt raw := by
    refine UInt64.toNat.inj ?_
    have small := raw.toNat_lt
    change (UInt64.ofInt raw.toNat).toNat = raw.toNat
    rw [UInt64.ofInt, UInt64.toNat_ofNat']
    omega
  toInt_ofInt {raw} negative := absurd negative (Int.natCast_nonneg _).not_gt

theorem sign_cases (number : Int) :
    number < 0 ∧ number.sign = -1 ∨ number = 0 ∧ number.sign = 0 ∨
      0 < number ∧ number.sign = 1 := by
  rcases lt_trichotomy number 0 with negative | rfl | positive
  · exact Or.inl ⟨negative, Int.sign_eq_neg_one_of_neg negative⟩
  · exact Or.inr (Or.inl ⟨rfl, rfl⟩)
  · exact Or.inr (Or.inr ⟨positive, Int.sign_eq_one_of_pos positive⟩)

namespace ScaledInt

open IntegralType

variable {Raw : Type} {scale : Nat} [IntegralType Raw]

/-- Whether a raw value has at most 52 bits. -/
def Small (number : ScaledInt Raw scale) : Prop := (toInt number.value).natAbs < 2 ^ 52

instance (number : ScaledInt Raw scale) : Decidable number.Small :=
  inferInstanceAs (Decidable (_ < _))

/-- Whether a number is another one, or the next one to it toward zero. -/
def AtOrBelow (read number : ScaledInt Raw scale) : Prop :=
  toInt read.value = toInt number.value ∨
    toInt read.value = toInt number.value - (toInt number.value).sign

/-- The number with a raw value. -/
def ofInt (number : Int) : ScaledInt Raw scale := ⟨IntegralType.ofInt number⟩

/-- What a subscriber reads a double as: the number that is written so, looked for next to what the
constructor makes of the double. -/
def readDouble (value : Float.Model) : ScaledInt Raw scale :=
  let read : ScaledInt Raw scale := ofDouble value
  if read.descaledValue = value then read
  else if (ofInt (toInt read.value + 1) : ScaledInt Raw scale).descaledValue = value then
    ofInt (toInt read.value + 1)
  else ofInt (toInt read.value - 1)

variable [FaithfulIntegralType Raw]

@[simp]
theorem ofInt_toInt (number : ScaledInt Raw scale) : ofInt (toInt number.value) = number :=
  value_injective (FaithfulIntegralType.ofInt_toInt number.value)

theorem toInt_injective {first second : ScaledInt Raw scale}
    (same : toInt first.value = toInt second.value) : first = second := by
  rw [← ofInt_toInt first, same, ofInt_toInt]

variable (positive : 0 < scale) (fits : scale < 2 ^ 53)

include fits in
theorem scaleDouble : Float.Model.ofUInt64 (UInt64.ofNat scale) = Float.Model.ofInt scale :=
  congrArg (fun number : Nat => Float.Model.ofInt number)
    (UInt64.toNat_ofNat_of_lt' (Nat.lt_trans fits (by decide)))

include positive fits

/-- No two small numbers are written as one double. -/
theorem descaledValue_injOn :
    Set.InjOn descaledValue {number : ScaledInt Raw scale | number.Small} := by
  intro first firstSmall second secondSmall same
  rw [descaledValue, descaledValue, scaleDouble fits] at same
  exact toInt_injective (Binary64.div_injective positive fits firstSmall secondSmall same)

omit [FaithfulIntegralType Raw] in
/-- The constructor makes of what a small number is written as the number, or the next one toward
zero. -/
theorem atOrBelow_ofDouble [Div Raw] [LawfulIntegralType Raw] {number : ScaledInt Raw scale}
    (small : number.Small) :
    (ofDouble number.descaledValue : ScaledInt Raw scale).AtOrBelow number := by
  obtain ⟨result, either, truncated⟩ := Binary64.toInt_div_mul positive fits small
  have small : (toInt number.value).natAbs < 2 ^ 52 := small
  have sign := sign_cases (toInt number.value)
  have read : toInt (ofDouble number.descaledValue : ScaledInt Raw scale).value = result := by
    refine LawfulIntegralType.toInt_ofDouble number.value (by omega) (fun _ => by omega) ?_
    rw [descaledValue, scaleDouble fits]
    exact truncated
  rwa [AtOrBelow, read]

/-- A number next to a small one is not written like it. -/
theorem descaledValue_ne {number other : ScaledInt Raw scale} (small : number.Small)
    (otherSmall : other.Small) (differ : toInt other.value ≠ toInt number.value) :
    other.descaledValue ≠ number.descaledValue := fun same =>
  differ (congrArg (toInt ∘ value) (descaledValue_injOn positive fits otherSmall small same))

/-- A subscriber reads a small number back. -/
theorem readDouble_descaledValue [Div Raw] [LawfulIntegralType Raw] {number : ScaledInt Raw scale}
    (small : number.Small) : readDouble number.descaledValue = number := by
  have bound : (toInt number.value).natAbs < 2 ^ 52 := small
  have sign := sign_cases (toInt number.value)
  have near := atOrBelow_ofDouble positive fits small
  rw [readDouble]
  generalize (ofDouble number.descaledValue : ScaledInt Raw scale) = read at near ⊢
  by_cases same : toInt read.value = toInt number.value
  · rw [toInt_injective same]
    exact if_pos rfl
  have next := near.resolve_left same
  have readSmall : (toInt read.value).natAbs < 2 ^ 52 := by omega
  rw [if_neg (descaledValue_ne positive fits small readSmall same)]
  rcases sign with ⟨negative, one⟩ | ⟨zero, none⟩ | ⟨positiveNumber, one⟩
  · -- the number above what is read is on the other side of the number
    have above : toInt (ofInt (toInt read.value + 1) : ScaledInt Raw scale).value =
        toInt read.value + 1 :=
      FaithfulIntegralType.toInt_ofInt negative (by omega)
    have aboveSmall : (ofInt (toInt read.value + 1) : ScaledInt Raw scale).Small := by
      rw [Small, above]
      omega
    rw [if_neg (descaledValue_ne positive fits small aboveSmall (by omega)), next, one]
    simp
  · exact absurd (by omega) same
  · rw [next, one, sub_add_cancel, ofInt_toInt]
    exact if_pos rfl

end ScaledInt

/-! ### Orders that are read -/

/-- An order that is sent with the numbers that the feeds write for a price and a quantity is read
with this price or the next one toward zero, and with this quantity or one unit less. -/
theorem order_read_at_or_below {libraries : Libraries} (documented : libraries.Documented)
    {text : List UInt8} {json : Json} (parsed : libraries.parse text = some json)
    {message : Message} (carries : Carries json message) {price : Price} {qty : Quantity}
    (priceSmall : price.Small) (qtySmall : qty.Small)
    (priced : message.price = price.descaledValue) (counted : message.qty = qty.descaledValue)
    (surroundings : Surroundings) :
    ∃ order, parseOrder libraries surroundings text = .ok (.value order) ∧
      order.price.AtOrBelow price ∧ order.qty.AtOrBelow qty ∧ order.remainingQty = order.qty := by
  refine ⟨_, parseOrder_of_carries documented parsed carries, ?_, ?_, rfl⟩
  · rw [Message.order, priced]
    exact ScaledInt.atOrBelow_ofDouble (by decide) (by decide) priceSmall
  · rw [Message.order, counted]
    exact ScaledInt.atOrBelow_ofDouble (by decide) (by decide) qtySmall

/-- The sample is sent with the numbers of a price of one hundred and a quantity of one. -/
theorem sample_order_read :
    ∃ order, parseOrder (sampleLibraries [(sampleText, sampleJson)]) .intact sampleText =
        .ok (.value order) ∧
      order.price.AtOrBelow ⟨10000⟩ ∧ order.qty.AtOrBelow ⟨100000000⟩ ∧
      order.remainingQty = order.qty :=
  order_read_at_or_below (sampleLibraries_documented _) sample_parse sampleJson_carries (by decide)
    (by decide) (by decide) (by decide) .intact

/-- A price of 0.29 is read as 0.28. -/
example : (ScaledInt.ofDouble (⟨29⟩ : Price).descaledValue : Price) = ⟨28⟩ := by decide

/-! ### Events that are read -/

/-- A reader that tries the neighbours of what the constructor makes of a double. -/
def feedNumbers : NumberReader := ⟨ScaledInt.readDouble, ScaledInt.readDouble⟩

/-- Whether the raw values of an event have at most 52 bits. -/
structure Event.Small (event : Event) : Prop where
  price : event.price.Small
  quantity : ∀ quantity ∈ event.quantities, quantity.Small

instance : DecidablePred Event.Small := fun event =>
  decidable_of_iff (event.price.Small ∧ ∀ quantity ∈ event.quantities, quantity.Small)
    ⟨fun both => ⟨both.1, both.2⟩, fun small => ⟨small.price, small.quantity⟩⟩

theorem feedNumbers_reads {event : Event} (small : event.Small) : feedNumbers.Reads event where
  price := ScaledInt.readDouble_descaledValue (by decide) (by decide) small.price
  quantity quantity own :=
    ScaledInt.readDouble_descaledValue (by decide) (by decide) (small.quantity quantity own)

/-- Small numbers are written as numbers of their own. -/
theorem rendered_of_small {dump : Json → String} {parse : String → Option Json}
    {events : Set Event} (small : ∀ event ∈ events, event.Small)
    (line : ∀ event ∈ events, ∃ json, parse (event.toJsonString dump) = some json ∧
      event.jsonObj.Alike json) : Rendered dump parse events where
  price := by
    refine (ScaledInt.descaledValue_injOn (by decide) (by decide)).mono ?_
    rintro _ ⟨event, member, rfl⟩
    exact (small event member).price
  quantity := by
    refine (ScaledInt.descaledValue_injOn (by decide) (by decide)).mono ?_
    rintro quantity ⟨event, member, own⟩
    exact (small event member).quantity quantity own
  line := line

namespace Exchange

/-- Along every orderly run, while a connection to a feed other than that of the last trades is
there, its subscriber reads exactly the events of its feed, as long as their raw values have at most
52 bits and their lines are parsed to values that are alike to those written. -/
theorem feed_read_back (libraries : Libraries) (dump : Json → String) (symbols : List String)
    (orderIds tradeIds : IdGenerator) {front during : List ExchangeRequest}
    (orderly : ∀ call ∈ run libraries dump symbols orderIds tradeIds (front ++ during),
      call.Orderly)
    {handler : Address} {conType : ConnectionType} (named : conType ≠ .PUBLIC_FEED_LAST_TRADE)
    (connected : ∀ call ∈ since libraries dump symbols orderIds tradeIds front during,
      call.after.reactor.Connected handler conType)
    {parse : String → Option Json}
    (line : ∀ event ∈ publishedOn conType
      (since libraries dump symbols orderIds tradeIds front during), event.Small ∧
        ∃ json, parse (event.toJsonString dump) = some json ∧ event.jsonObj.Alike json) :
    heard parse feedNumbers (linesTo handler
        (since libraries dump symbols orderIds tradeIds front during)) =
      ((since libraries dump symbols orderIds tradeIds front during).flatMap
        ExchangeCall.events).filter fun event => event.connectionType = conType := by
  have delivers := run_delivers libraries dump symbols orderIds tradeIds orderly
  rw [run_since] at delivers
  rw [linesTo_of_delivers (List.forall_mem_append.mp delivers).2 connected]
  have published : ∀ event ∈ ((since libraries dump symbols orderIds tradeIds front during).flatMap
      ExchangeCall.events).filter fun event => event.connectionType = conType,
      event ∈ publishedOn conType
        (since libraries dump symbols orderIds tradeIds front during) := by
    intro event member
    obtain ⟨own, feed⟩ := List.mem_filter.mp member
    exact ⟨own, of_decide_eq_true feed⟩
  refine heard_map (rendered_of_small ?_ ?_) ?_ ?_
  · exact fun event member => (line event (published event member)).1
  · exact fun event member => (line event (published event member)).2
  · exact fun event member => feedNumbers_reads (line event (published event member)).1
  · exact fun event member => (published event member).2 ▸ named

/-- The subscriber of the sample reads the order that comes to rest. -/
theorem feed_read_back_sample :
    heard sampleParse feedNumbers (linesTo 48
        (since sampleReader sampleDump ["AAPL"] ⟨0⟩ ⟨0⟩ sampleFront sampleDuring)) =
      ((since sampleReader sampleDump ["AAPL"] ⟨0⟩ ⟨0⟩ sampleFront sampleDuring).flatMap
        ExchangeCall.events).filter fun event =>
          event.connectionType = .PUBLIC_FEED_ORDER_BOOK := by
  refine feed_read_back sampleReader sampleDump ["AAPL"] ⟨0⟩ ⟨0⟩ (sample_orderly _ _ _ _ _)
    (by decide) (sample_connected _ _ _ _ _) fun event member => ?_
  refine ⟨?_, sampleEvents_rendered.line event (sample_levels member)⟩
  rcases sample_levels member with rfl | rfl <;> decide

end Exchange

end OrderForge
