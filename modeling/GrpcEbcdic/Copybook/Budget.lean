import GrpcEbcdic.Copybook.Steps

/-!
# The limits of the expansion

What the items come to, limit by limit, is read off the items alone: `bill` charges every elementary
item its occurrences before anything is pushed. `Sound` ties the points of the loop to these totals: the
counters are the totals of the items charged, the fields pushed never count more, and the loop stops at
the first item whose totals are over a limit (`failsAt_iff`).
-/

namespace GrpcEbcdic.Copybook
open Rust StateTransition Budget

variable [Unicode]

/-- What an item counts against a limit, with the items after it; a group counts nothing. -/
def itemCharge (item : Item) (rest : List Item) (limit : Limit) : Nat :=
  if isGroup item rest then 0
  else limit.each item (item.shape.elim 0 (·.size)) * item.occurs.getD 1

/-- The charges of the items, in order. -/
def bill : List Item → List (Limit → Nat)
  | [] => []
  | item :: rest => itemCharge item rest :: bill rest

/-- What the first `n` items come to. -/
def totals (items : List Item) (n : Nat) : Limit → Nat := total (bill items) n

/-- An item that can be expanded: a group has neither a picture nor a count, any other item has a
picture that describes bytes. -/
def Expands (item : Item) (rest : List Item) : Prop :=
  if isGroup item rest then item.picture = none ∧ item.occurs = none else item.shape ≠ none

/-- The first `n` items can be expanded. -/
def ExpandFirst (items : List Item) (n : Nat) : Prop :=
  ∀ k < n, ∀ item rest, items.drop k = item :: rest → Expands item rest

section Totals

omit [Unicode] in
/-- A field adds what one occurrence of its item counts. -/
lemma measure_occurrence (out : List RawField) (groups : List (Nat × String)) (item : Item)
    (picture : String) (described : Described) (i : Nat) (limit : Limit) :
    limit.measure (out ++ [occurrenceField groups item picture described i])
      = limit.measure out + limit.each item described.size := by
  cases limit <;> simp [Limit.measure, Limit.each, occurrenceField, conditionCount]

/-- Behind the last item the totals stay. -/
lemma totals_all {items : List Item} {n : Nat} (le : items.length ≤ n) :
    totals items n = totals items items.length := by
  have len : (bill items).length = items.length := by
    induction items with
    | nil => rfl
    | cons item rest ih => rw [bill, List.length_cons, List.length_cons, ih (Nat.le_of_succ_le le)]
  rw [totals, totals, total_all (len.trans_le le), len]

/-- The charges behind an item are those of the items behind it. -/
lemma bill_drop (items : List Item) (n : Nat) : (bill items).drop n = bill (items.drop n) := by
  induction n generalizing items with
  | zero => rfl
  | succ n ih =>
    cases items with
    | nil => rfl
    | cons item rest => exact ih rest

/-- One more item adds its charge. -/
lemma totals_succ {items rest : List Item} {item : Item} {n : Nat}
    (left : items.drop n = item :: rest) (limit : Limit) :
    totals items (n + 1) limit = totals items n limit + itemCharge item rest limit := by
  refine total_succ ?_ limit
  have head : ((bill items).drop n).head? = some (itemCharge item rest) := by
    rw [bill_drop, left, bill, List.head?_cons]
  rwa [List.head?_drop] at head

/-- The item behind the first `n` decides whether one more can be expanded. -/
lemma expandFirst_succ {items rest : List Item} {item : Item} {n : Nat}
    (left : items.drop n = item :: rest) :
    ExpandFirst items (n + 1) ↔ ExpandFirst items n ∧ Expands item rest := by
  constructor
  · exact fun all => ⟨fun k lt => all k (lt.trans n.lt_succ_self), all n n.lt_succ_self _ _ left⟩
  · rintro ⟨before, own⟩ k lt item' rest' left'
    rcases Nat.lt_succ_iff_lt_or_eq.mp lt with lt | rfl
    · exact before k lt item' rest' left'
    · rw [left] at left'
      cases left'
      exact own

omit [Unicode] in
/-- The items behind the first `n + 1`. -/
lemma drop_succ {items rest : List Item} {item : Item} {n : Nat}
    (left : items.drop n = item :: rest) : items.drop (n + 1) = rest := by
  rw [← List.drop_drop, left, List.drop_succ_cons, List.drop_zero]

omit [Unicode] in
/-- There is an item behind the first `n`. -/
lemma lt_of_drop {items rest : List Item} {item : Item} {n : Nat}
    (left : items.drop n = item :: rest) : n < items.length := by
  by_contra ge
  rw [List.drop_eq_nil_of_le (not_lt.mp ge)] at left
  cases left

omit [Unicode] in
/-- The charges find the first limit that the totals with this item are over. -/
lemma charge_eq (flat : Flat) (item : Item) (described : Described) {after : Limit → Nat}
    (sum : ∀ limit, after limit
      = limit.charged flat + limit.each item described.size * item.occurs.getD 1) :
    flat.charge item described = match breach Limit.order Limit.most after with
      | some limit => .error (limit, after limit)
      | none => .ok { flat with
          recordBytes := after .recordBytes
          conditionValues := after .conditionValues } := by
  have bytes : flat.recordBytes + described.size * item.occurs.getD 1 = after .recordBytes :=
    (sum .recordBytes).symm
  have fields : flat.out.length + item.occurs.getD 1 = after .layoutFields := by
    rw [sum .layoutFields, Limit.each, Nat.one_mul]
    rfl
  have values : flat.conditionValues + conditionCount item * item.occurs.getD 1
      = after .conditionValues := (sum .conditionValues).symm
  simp only [Flat.charge, bytes, fields, values, breach, Limit.order, List.find?_cons,
    List.find?_nil, Limit.most]
  by_cases overBytes : maxRecordBytes < after .recordBytes
  · simp [overBytes]
  · by_cases overFields : maxLayoutFields < after .layoutFields
    · simp [overBytes, overFields]
    · by_cases overValues : maxConditionValues < after .conditionValues <;>
        simp [overBytes, overFields, overValues]

end Totals

section Invariant

/-- An item that is expanded into fields, with its picture and what that describes. -/
structure Elementary (item : Item) (rest : List Item) (picture : String) (described : Described) :
    Prop where
  leaf : isGroup item rest = false
  pic : item.picture = some picture
  desc : describe picture item.usage item.name = .ok described

/-- The first `n` items can be expanded, and are within the limits. -/
structure Paid (items : List Item) (n : Nat) : Prop where
  expand : ExpandFirst items n
  within : Within Limit.most (totals items n)

/-- The first `n` items have been charged and pushed, and `rest` is left. -/
structure Ledger (items : List Item) (n : Nat) (flat : Flat) (rest : List Item) : Prop where
  le : n ≤ items.length
  left : items.drop n = rest
  paid : Paid items n
  charged : ∀ limit : Limit, limit.charged flat = totals items n limit
  measured : ∀ limit : Limit, limit.measure flat.out = totals items n limit

/-- An item is charged and some of its occurrences are pushed. -/
structure Pushing (items : List Item) (n : Nat) (flat : Flat) (item : Item) (described : Described)
    (pushed : Nat) (rest : List Item) : Prop where
  left : items.drop n = item :: rest
  paid : Paid items (n + 1)
  le : pushed ≤ item.occurs.getD 1
  recordBytes : flat.recordBytes = totals items (n + 1) .recordBytes
  conditionValues : flat.conditionValues = totals items (n + 1) .conditionValues
  measured : ∀ limit : Limit,
    limit.measure flat.out = totals items n limit + limit.each item described.size * pushed

/-- What holds at the points of the loop over `items`. -/
def Sound (items : List Item) : Point → Prop
  | .next flat rest => ∃ n, Ledger items n flat rest
  | .charging flat item picture described rest =>
    ∃ n, Ledger items n flat (item :: rest) ∧ Elementary item rest picture described
  | .pushing flat item picture described pushed rest =>
    ∃ n, Pushing items n flat item described pushed rest ∧ Elementary item rest picture described
  | .exceeded limit total flat item rest =>
    ∃ n, Ledger items n flat (item :: rest) ∧ Expands item rest ∧
      breach Limit.order Limit.most (totals items (n + 1)) = some limit ∧
      total = totals items (n + 1) limit
  | .refused _ flat left =>
    ∃ n item rest, left = item :: rest ∧ Ledger items n flat (item :: rest) ∧ ¬Expands item rest
  | .done flat => Ledger items items.length flat []

omit [Unicode] in
/-- The open groups are not in the accounts. -/
lemma charged_groups (flat : Flat) (groups : List (Nat × String)) (limit : Limit) :
    limit.charged { flat with groups := groups } = limit.charged flat := by
  cases limit <;> rfl

omit [Unicode] in
/-- Every limit is checked. -/
lemma Limit.mem_order (limit : Limit) : limit ∈ Limit.order := by
  cases limit <;> simp [Limit.order]

variable {items rest : List Item} {flat : Flat} {item : Item} {picture : String}
  {described : Described}

/-- An elementary item has the shape its picture describes. -/
lemma Elementary.shape (el : Elementary item rest picture described) :
    ∃ shape, item.shape = some shape ∧ shape.size = described.size :=
  ⟨_, Item.shape_eq_some.mpr ⟨picture, el.pic, described, el.desc, rfl⟩, rfl⟩

lemma Elementary.expands (el : Elementary item rest picture described) : Expands item rest := by
  obtain ⟨shape, some, _⟩ := el.shape
  rw [Expands, el.leaf, if_neg Bool.false_ne_true, some]
  exact Option.some_ne_none shape

/-- An elementary item is charged its occurrences. -/
lemma Elementary.charge (el : Elementary item rest picture described) (limit : Limit) :
    itemCharge item rest limit = limit.each item described.size * item.occurs.getD 1 := by
  obtain ⟨shape, some, size⟩ := el.shape
  rw [itemCharge, el.leaf, if_neg Bool.false_ne_true, some, Option.elim_some, size]

/-- Closing groups leaves the accounts as they are. -/
lemma Ledger.close {n : Nat} (led : Ledger items n flat rest) (level : Nat) :
    Ledger items n (flat.close level) rest :=
  ⟨led.le, led.left, led.paid, fun limit => (charged_groups flat _ limit).trans (led.charged limit),
    led.measured⟩

/-- A group is passed without a charge. -/
lemma Ledger.group {n : Nat} {next : Flat} (led : Ledger items n flat (item :: rest))
    (gr : isGroup item rest = true) (ok : flattenItem flat item rest = .ok next) :
    Ledger items (n + 1) next rest := by
  obtain ⟨pic, occurs, rfl⟩ := (flattenItem_group gr).mp ok
  have free : totals items (n + 1) = totals items n := by
    funext limit
    rw [totals_succ led.left, itemCharge, if_pos gr, Nat.add_zero]
  have own : Expands item rest := by
    rw [Expands, if_pos gr]
    exact ⟨pic, occurs⟩
  refine ⟨lt_of_drop led.left, drop_succ led.left, ⟨?_, ?_⟩, ?_, ?_⟩
  · exact (expandFirst_succ led.left).mpr ⟨led.paid.expand, own⟩
  · rw [free]
    exact led.paid.within
  · rw [free]
    exact fun limit => (charged_groups flat _ limit).trans (led.charged limit)
  · rw [free]
    exact led.measured

/-- What the loop has charged and charges for an item are the totals with it. -/
lemma Ledger.after {n : Nat} (led : Ledger items n flat (item :: rest))
    (el : Elementary item rest picture described) (limit : Limit) :
    totals items (n + 1) limit
      = limit.charged flat + limit.each item described.size * item.occurs.getD 1 := by
  rw [totals_succ led.left, el.charge, led.charged]

/-- An item is refused when it cannot be expanded, and is entered when it can. -/
lemma Ledger.enter {n : Nat} (led : Ledger items n flat (item :: rest)) :
    Sound items (enterItem flat item rest) := by
  unfold enterItem
  have closed := led.close item.level
  cases gr : isGroup item rest with
  | true =>
    rw [if_pos rfl]
    cases step : flattenItem flat item rest with
    | ok next => exact ⟨n + 1, led.group gr step⟩
    | error e =>
      refine ⟨n, item, rest, rfl, closed, fun own => ?_⟩
      rw [Expands, if_pos gr] at own
      rw [(flattenItem_group gr).mpr ⟨own.1, own.2, rfl⟩] at step
      cases step
  | false =>
    rw [if_neg Bool.false_ne_true]
    have shapeless (none : item.shape = none) : ¬Expands item rest := by
      rw [Expands, gr, if_neg Bool.false_ne_true, none]
      exact not_not_intro rfl
    cases pic : item.picture with
    | none => exact ⟨n, item, rest, rfl, closed, shapeless (by rw [Item.shape, pic])⟩
    | some picture =>
      dsimp only
      cases hd : describe picture item.usage item.name with
      | error e =>
        refine ⟨n, item, rest, rfl, closed, shapeless ?_⟩
        simp only [Item.shape, pic, hd]
      | ok described => exact ⟨n, closed, gr, pic, hd⟩

/-- The charges are within the limits, or stop at the first one they go over. -/
lemma Ledger.charge {n : Nat} {next : Point} (led : Ledger items n flat (item :: rest))
    (el : Elementary item rest picture described)
    (step : Point.step (.charging flat item picture described rest) = some next) :
    Sound items next := by
  rw [Point.step, charge_eq flat item described (led.after el)] at step
  cases past : breach Limit.order Limit.most (totals items (n + 1)) with
  | some limit =>
    rw [past] at step
    cases step
    exact ⟨n, led, el.expands, past, rfl⟩
  | none =>
    rw [past] at step
    cases step
    refine ⟨n, ⟨led.left, ⟨?_, ?_⟩, Nat.zero_le _, rfl, rfl, fun limit => ?_⟩, el⟩
    · exact (expandFirst_succ led.left).mpr ⟨led.paid.expand, el.expands⟩
    · exact (breach_eq_none Limit.mem_order).mp past
    · rw [Nat.mul_zero, Nat.add_zero]
      exact led.measured limit

/-- One more occurrence is pushed, or the item is done. -/
lemma Pushing.push {n pushed : Nat} {next : Point}
    (push : Pushing items n flat item described pushed rest)
    (el : Elementary item rest picture described)
    (step : Point.step (.pushing flat item picture described pushed rest) = some next) :
    Sound items next := by
  rw [Point.step] at step
  split at step
  · next lt =>
    cases step
    refine ⟨n, ⟨push.left, push.paid, lt, push.recordBytes, push.conditionValues, fun limit => ?_⟩, el⟩
    rw [measure_occurrence, push.measured, Nat.add_assoc, Nat.mul_add_one]
  · next all =>
    cases step
    have full : pushed = item.occurs.getD 1 := le_antisymm push.le (not_lt.mp all)
    have measured (limit : Limit) : limit.measure flat.out = totals items (n + 1) limit := by
      rw [push.measured, full, totals_succ push.left, el.charge]
    refine ⟨n + 1, lt_of_drop push.left, drop_succ push.left, push.paid, fun limit => ?_, measured⟩
    cases limit with
    | recordBytes => exact push.recordBytes
    | layoutFields => exact measured .layoutFields
    | conditionValues => exact push.conditionValues

/-- A step of the loop keeps the accounts. -/
lemma Sound.step {point next : Point} (sound : Sound items point)
    (step : point.step = some next) : Sound items next := by
  cases point with
  | next flat left =>
    obtain ⟨n, led⟩ := sound
    cases left with
    | nil =>
      cases step
      have all : n = items.length := le_antisymm led.le (List.drop_eq_nil_iff.mp led.left)
      rw [all] at led
      exact led
    | cons item rest =>
      cases step
      exact led.enter
  | charging flat item picture described rest =>
    obtain ⟨n, led, el⟩ := sound
    exact led.charge el step
  | pushing flat item picture described pushed rest =>
    obtain ⟨n, push, el⟩ := sound
    exact push.push el step
  | exceeded limit total flat item rest => cases step
  | refused e flat left => cases step
  | done flat => cases step

/-- The accounts are kept at every point `flatten` passes. -/
lemma Passes.sound {point : Point} (passes : Passes items point) : Sound items point := by
  refine Reaches.invariant passes ⟨0, ?_⟩ Sound.step
  have free : totals items 0 = 0 := total_zero
  refine ⟨Nat.zero_le _, List.drop_zero, ⟨fun k lt => absurd lt k.not_lt_zero, ?_⟩, ?_, ?_⟩
  · rw [free]
    exact fun limit => Nat.zero_le _
  · rw [free]
    exact fun limit => by cases limit <;> rfl
  · rw [free]
    exact fun limit => by cases limit <;> rfl

/-- What has been pushed is within the limits at every point. -/
lemma Sound.within {point : Point} (sound : Sound items point) :
    Within Limit.most (fun limit => limit.measure point.out) := by
  have held {n : Nat} {left : List Item} {flat : Flat} (led : Ledger items n flat left) :
      Within Limit.most (fun limit => limit.measure flat.out) :=
    fun limit => (led.measured limit).le.trans (led.paid.within limit)
  cases point with
  | next flat left => exact held sound.choose_spec
  | charging flat item picture described rest => exact held sound.choose_spec.1
  | exceeded limit total flat item rest => exact held sound.choose_spec.1
  | refused e flat left =>
    obtain ⟨n, item, rest, rfl, led, _⟩ := sound
    exact held led
  | done flat => exact held sound
  | pushing flat item picture described pushed rest =>
    obtain ⟨n, push, el⟩ := sound
    refine fun limit => le_trans ?_ (push.paid.within limit)
    -- Not more occurrences are pushed than have been charged.
    calc limit.measure flat.out
        = totals items n limit + limit.each item described.size * pushed := push.measured limit
      _ ≤ totals items n limit + limit.each item described.size * item.occurs.getD 1 :=
          Nat.add_le_add_left (Nat.mul_le_mul_left _ push.le) _
      _ = totals items (n + 1) limit := by rw [totals_succ push.left, el.charge]

end Invariant

section Exact

/-- The loop stops at item `n`, whose charges come to `total`, over the limit. -/
def FailsAt (items : List Item) (n : Nat) (limit : Limit) (total : Nat) : Prop :=
  ∃ flat item rest, items.drop n = item :: rest ∧ Passes items (.exceeded limit total flat item rest)

variable {items : List Item}

omit [Unicode] in
/-- A position in a list is told by what is left. -/
lemma drop_inj {α : Type*} {xs : List α} {m n : Nat} (hm : m ≤ xs.length) (hn : n ≤ xs.length)
    (same : xs.drop m = xs.drop n) : m = n := by
  have len := congrArg List.length same
  rw [List.length_drop, List.length_drop] at len
  omega

/-- A failed charge is the first: the items can be expanded up to its own, the totals before it are
within the limits, and with it they are over this limit, the first that is checked. -/
lemma FailsAt.spec {n total : Nat} {limit : Limit} (fails : FailsAt items n limit total) :
    ExpandFirst items (n + 1) ∧ Within Limit.most (totals items n) ∧
      breach Limit.order Limit.most (totals items (n + 1)) = some limit ∧
      total = totals items (n + 1) limit := by
  obtain ⟨flat, item, rest, left, passes⟩ := fails
  obtain ⟨m, led, own, past, eq⟩ := passes.sound
  obtain rfl : m = n := drop_inj led.le (lt_of_drop left).le (led.left.trans left.symm)
  exact ⟨(expandFirst_succ left).mpr ⟨led.paid.expand, own⟩, led.paid.within, past, eq⟩

/-- The first charge that is over a limit fails. -/
lemma failsAt_of_breach {n : Nat} {limit : Limit} (expand : ExpandFirst items (n + 1))
    (within : Within Limit.most (totals items n))
    (past : breach Limit.order Limit.most (totals items (n + 1)) = some limit) :
    FailsAt items n limit (totals items (n + 1) limit) := by
  obtain ⟨last, passes, result, _⟩ := flatten_runs items
  -- The run ends nowhere else: not before item `n`, nor behind it.
  have before {m : Nat} (paid : Paid items m) : m ≤ n := by
    by_contra lt
    exact not_within past (paid.within.mono (not_le.mp lt))
  rcases result_cases result with
    ⟨flat, rfl, _⟩ | ⟨e, flat, left, rfl, _⟩ | ⟨limit', total, flat, item, rest, rfl, _⟩
  · have paid := passes.sound.paid
    rw [totals_all ((before paid).trans n.le_succ)] at past
    exact absurd paid.within (not_within past)
  · obtain ⟨m, item, rest, rfl, led, not⟩ := passes.sound
    exact absurd (expand m (Nat.lt_succ_of_le (before led.paid)) item rest led.left) not
  · obtain ⟨m, led, own, past', rfl⟩ := passes.sound
    rcases (before led.paid).lt_or_eq with lt | rfl
    · exact absurd (within.mono lt) (not_within past')
    · rw [past] at past'
      cases past'
      exact ⟨flat, item, rest, led.left, passes⟩

/-- What a failed charge is: an exact condition on the totals. -/
theorem failsAt_iff {n total : Nat} {limit : Limit} :
    FailsAt items n limit total ↔
      ExpandFirst items (n + 1) ∧ Within Limit.most (totals items n) ∧
        breach Limit.order Limit.most (totals items (n + 1)) = some limit ∧
        total = totals items (n + 1) limit := by
  constructor
  · exact FailsAt.spec
  · rintro ⟨expand, within, past, rfl⟩
    exact failsAt_of_breach expand within past

/-- Some charge fails exactly when the totals go over a limit before an item that cannot be expanded. -/
theorem exists_failsAt :
    (∃ n limit total, FailsAt items n limit total) ↔
      ∃ n, ExpandFirst items n ∧ ¬Within Limit.most (totals items n) := by
  constructor
  · rintro ⟨n, limit, total, fails⟩
    obtain ⟨expand, _, past, _⟩ := fails.spec
    exact ⟨n + 1, expand, not_within past⟩
  · rintro ⟨n, expand, past⟩
    obtain ⟨m, lt, within, past⟩ := exists_overdraw past
    obtain ⟨limit, some⟩ := Option.ne_none_iff_exists'.mp
      (mt (breach_eq_none Limit.mem_order).mp past)
    exact ⟨m, limit, _, failsAt_of_breach (fun k le => expand k (lt_of_lt_of_le le lt)) within some⟩

/-- A failed charge is what `flatten` returns, with the label of its item and the total. -/
lemma FailsAt.error {n total : Nat} {limit : Limit} (fails : FailsAt items n limit total) :
    ∃ item ∈ items[n]?, flatten items = .error (limit.refusal item.label total) := by
  obtain ⟨flat, item, rest, left, passes⟩ := fails
  obtain ⟨last, _, result, unique⟩ := flatten_runs items
  rw [← unique _ passes rfl, Point.result] at result
  refine ⟨item, ?_, (Option.some.inj result).symm⟩
  rw [← List.head?_drop, left, List.head?_cons, Option.mem_some_iff]

/-- What `flatten` returns is the output at the last point. -/
lemma flatten_done {fields : List RawField} (ok : flatten items = .ok fields) :
    ∃ flat, Passes items (.done flat) ∧ flat.out = fields := by
  obtain ⟨last, passes, result, _⟩ := flatten_runs items
  rw [ok] at result
  rcases result_cases result with ⟨flat, rfl, eq⟩ | ⟨_, _, _, _, eq⟩ | ⟨_, _, _, _, _, _, eq⟩
  · cases eq
    exact ⟨flat, passes, rfl⟩
  · cases eq
  · cases eq

/-- The items are flattened when all can be expanded and the totals are within the limits. -/
theorem flatten_ok_iff : (∃ fields, flatten items = .ok fields) ↔ Paid items items.length := by
  constructor
  · rintro ⟨fields, ok⟩
    obtain ⟨flat, passes, _⟩ := flatten_done ok
    exact passes.sound.paid
  · intro paid
    obtain ⟨last, passes, result, _⟩ := flatten_runs items
    rcases result_cases result with
      ⟨flat, rfl, ok⟩ | ⟨e, flat, left, rfl, _⟩ | ⟨limit, total, flat, item, rest, rfl, _⟩
    · exact ⟨flat.out, ok⟩
    · obtain ⟨m, item, rest, rfl, led, not⟩ := passes.sound
      exact absurd (paid.expand m (lt_of_drop led.left) item rest led.left) not
    · obtain ⟨m, led, own, past, _⟩ := passes.sound
      exact absurd (paid.within.mono (lt_of_drop led.left)) (not_within past)

/-- The fields `flatten` returns are within the limits. -/
lemma flatten_within {fields : List RawField} (ok : flatten items = .ok fields) :
    Within Limit.most (fun limit => limit.measure fields) := by
  obtain ⟨flat, passes, rfl⟩ := flatten_done ok
  exact passes.sound.within

end Exact

end GrpcEbcdic.Copybook
