import TextTunnel.Field.Row
import TextTunnel.Proofs.Field.RoundTrip

/-!
# Rows of fields come back

Whatever fields are put into one byte string, a reader that is told the types of those that were not
refused gets them back, and leaves what is behind them. Every field shows where it ends, so this
needs nothing of the bytes that follow.

* `FieldEntry.put_cases` -- one field: it is written behind the others, or refused and nothing
  happens.
* `FieldEntry.putAll_spec` -- a row of fields: the written ones have a form that is read as them.
* `row_reads_back` -- both, and that every number takes as few bytes as can be.
-/

namespace TextTunnel

/-! ## 1. Fields -/

/-- The limit of a string leaves room for four bytes a character in a length of 32 bits. -/
def FieldType.Bounded : FieldType → Prop
  | string maxChars => maxChars < 2 ^ 30
  | _ => True

namespace FieldEntry

/-- Whether the field can be written: a string must be within its limit. -/
def fits : FieldEntry → Bool
  | ⟨.string maxChars, s⟩ => decide (String.length s ≤ maxChars)
  | _ => true

/-- The number that the field is written as. -/
def number? : FieldEntry → Option UInt32
  | ⟨.varint, n⟩ => some n
  | ⟨.varintSigned, n⟩ => some (Int32.toUInt32 n)
  | _ => none

variable {e : FieldEntry} {es : List FieldEntry} {written : Bytes}

theorem exists_write_iff : (∃ bs, e.type.write e.value = .ok bs) ↔ e.fits = true := by
  obtain ⟨type, value⟩ := e
  cases type with
  | string maxChars => exact exists_string_iff.trans decide_eq_true_iff.symm
  | _ => exact ⟨fun _ => rfl, fun _ => ⟨_, rfl⟩⟩

/-- Every field shows where it ends. -/
theorem exact_write (hbounded : e.type.Bounded) {bs : Bytes}
    (h : e.type.write e.value = .ok bs) : Exact e.type.read bs e.value := by
  obtain ⟨type, value⟩ := e
  cases type with
  | varint =>
    obtain rfl := Except.ok.inj h
    exact exact_varint value
  | varintSigned =>
    obtain rfl := Except.ok.inj h
    exact exact_varintSigned value
  | byte =>
    obtain rfl := Except.ok.inj h
    exact exact_byte value
  | bool =>
    obtain rfl := Except.ok.inj h
    exact exact_bool value
  | uuid =>
    obtain rfl := Except.ok.inj h
    exact exact_uuid value
  | string maxChars =>
    have hmax : maxChars < 2 ^ 30 := hbounded
    exact exact_string (by omega) h

/-- **One field.**  It is put behind what has been written, or it is refused and nothing happens. -/
theorem put_cases (written : Bytes) (e : FieldEntry) :
    (e.fits = true ∧ ∃ bs, e.type.write e.value = .ok bs ∧ e.put written = (.ok (), written ++ bs)) ∨
    (e.fits = false ∧ ∃ err, e.put written = (.error err, written)) := by
  unfold put
  cases h : e.type.write e.value with
  | ok bs => exact .inl ⟨exists_write_iff.mp ⟨bs, h⟩, bs, rfl, rfl⟩
  | error err =>
    refine .inr ⟨eq_false_of_ne_true fun hfits => ?_, err, rfl⟩
    obtain ⟨bs, hbs⟩ := exists_write_iff.mpr hfits
    exact nomatch h.symm.trans hbs

/-! ## 2. Rows -/

/-- **A row of fields.**  Those within their limits are accepted, and what is written for them is
read as them. -/
theorem putAll_spec (hbounded : ∀ e ∈ es, e.type.Bounded) (written : Bytes) :
    let result := putAll written es
    accepted es result.1 = es.filter fits ∧ ∃ bs, result.2 = written ++ bs ∧
      Exact (Reader.row ((es.filter fits).map type)) bs (es.filter fits) := by
  induction es generalizing written with
  | nil => exact ⟨rfl, [], (List.append_nil written).symm, exact_pure []⟩
  | cons e es ih =>
    obtain ⟨he, hes⟩ := List.forall_mem_cons.mp hbounded
    rcases put_cases written e with ⟨hfits, first, hfirst, hput⟩ | ⟨hfits, err, hput⟩
    · obtain ⟨haccepted, others, hothers, hexact⟩ := ih hes (written ++ first)
      simp only [putAll, hput, List.filter_cons_of_pos hfits]
      refine ⟨congrArg (e :: ·) haccepted, first ++ others, ?_, ?_⟩
      · rw [hothers, List.append_assoc]
      · exact (exact_write he hfirst).bind (hexact.bind_pure rfl)
    · have hskip : ¬ e.fits = true := by rw [hfits]; decide
      simp only [putAll, hput, List.filter_cons_of_neg hskip]
      exact ih hes written

end FieldEntry

/-! ## 3. As few bytes as can be -/

/-- The bytes are a number's, at most five, and no fewer bytes denote the number. -/
structure Field.Shortest (n : UInt32) (bs : Bytes) : Prop where
  groups : Groups bs
  ofGroups_eq : ofGroups bs = n.toNat
  one_le : 1 ≤ bs.length
  le_five : bs.length ≤ 5
  least : ∀ other, Groups other → ofGroups other = n.toNat → bs.length ≤ other.length

theorem shortest_varint (n : UInt32) : Field.Shortest n (Field.varint n) where
  groups := Field.groups_varintOfNat n.toNat
  ofGroups_eq := Field.ofGroups_varintOfNat n.toNat
  one_le := (Field.groups_varintOfNat n.toNat).length_pos
  le_five := Field.length_varint_le n
  least _ h heq := Field.length_varintOfNat_le_of_groups h (Nat.le_of_eq heq.symm)

/-- **Rows of fields come back.**  Fields of any types and values are put one after another, with
limits of strings below 2^30. Those that are refused are the strings over their limits, and they
leave what has been written as it was. A reader of the types of the others answers with the others,
and leaves exactly what is behind them. And each number takes as few bytes as can be. -/
theorem row_reads_back {es : List FieldEntry} (hbounded : ∀ e ∈ es, e.type.Bounded)
    (rest : Bytes) :
    let result := FieldEntry.putAll [] es
    let kept := FieldEntry.accepted es result.1
    Reader.row (kept.map FieldEntry.type) (result.2 ++ rest) = (.ok kept, rest) ∧
    kept = es.filter FieldEntry.fits ∧
    (∀ e ∈ es, e.fits = false → ∀ written, ∃ err, e.put written = (.error err, written)) ∧
    (∀ e ∈ es, ∀ n, e.number? = some n → ∀ written,
      ∃ bs, e.put written = (.ok (), written ++ bs) ∧ Field.Shortest n bs) := by
  intro result kept
  obtain ⟨haccepted, bs, hwritten, hexact⟩ := FieldEntry.putAll_spec hbounded []
  have hkept : kept = es.filter FieldEntry.fits := haccepted
  have hresult : result.2 = bs := hwritten
  refine ⟨?_, hkept, ?_, ?_⟩
  · rw [hkept, hresult]
    exact hexact.reads rest
  · intro e he hover written
    rcases FieldEntry.put_cases written e with ⟨hfits, -⟩ | ⟨-, hrefused⟩
    · exact absurd (hfits.symm.trans hover) (by decide)
    · exact hrefused
  · intro e he n hn written
    obtain ⟨type, value⟩ := e
    cases type with
    | varint =>
      obtain rfl := Option.some.inj hn
      exact ⟨_, rfl, shortest_varint value⟩
    | varintSigned =>
      obtain rfl := Option.some.inj hn
      exact ⟨_, rfl, shortest_varint (Int32.toUInt32 value)⟩
    | _ => exact nomatch hn

/-- A row with a string over its limit between other fields. -/
def mixedRow : List FieldEntry :=
  [⟨.varint, (300 : UInt32)⟩, ⟨.string 3, "four"⟩, ⟨.varintSigned, (-1 : Int32)⟩,
    ⟨.string 4, "fünf"⟩, ⟨.bool, true⟩]

theorem row_reads_back_mixedRow :
    (∀ e ∈ mixedRow, e.type.Bounded) ∧
    (FieldEntry.putAll [] mixedRow).2
      = [0xAC, 0x02, 0xFF, 0xFF, 0xFF, 0xFF, 0x0F, 5, 0x66, 0xC3, 0xBC, 0x6E, 0x66, 1] ∧
    Reader.row [.varint, .varintSigned, .string 4, .bool]
        ((FieldEntry.putAll [] mixedRow).2 ++ [9])
      = (.ok (mixedRow.eraseIdx 1), [9]) := by
  have hbounded : ∀ e ∈ mixedRow, e.type.Bounded := by
    simp [mixedRow, FieldType.Bounded]
  obtain ⟨hreads, hkept, -⟩ := row_reads_back hbounded [9]
  have hfilter : mixedRow.filter FieldEntry.fits = mixedRow.eraseIdx 1 := rfl
  rw [hkept, hfilter] at hreads
  exact ⟨hbounded, by decide +kernel, hreads⟩

end TextTunnel
