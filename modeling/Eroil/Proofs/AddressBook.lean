import Eroil.Proofs.Peers

/-! # What the list of peers puts into the address book

The book keeps for each id the first row whose port is not negative as a 16-bit number. That is the
first row with a port in 0..65535 unless a port from 32768 on, or one outside 0..65535, comes first.
-/

namespace Eroil.Addr

abbrev Row := List (List Char)

/-- `std::stoi` accepts the cells that the loop of `init_address_book` reads. -/
def RowOk (row : Row) : Prop :=
  ∃ value, row[0]?.bind stoi = some value ∧
    (0 ≤ value → ∃ ip port, row[1]? = some ip ∧ row[2]?.bind stoi = some port)

/-- What a row says about an id: an address and a port. -/
def offer (id : NodeId) (row : Row) : Option (List Char × ℤ) :=
  if row[0]?.bind stoi = some id.toInt then
    row[1]?.bind fun ip => (row[2]?.bind stoi).map fun port => (ip, port)
  else none

/-- What all rows say about an id, in the order of the list. -/
def offers (rows : List Row) (id : NodeId) : List (List Char × ℤ) := rows.filterMap (offer id)

/-- A port number. -/
def InRange (port : ℤ) : Bool := 0 ≤ port && port ≤ 65535

/-- The test that the source makes: the port as an `int16_t` is not negative. -/
def Kept (port : ℤ) : Bool := 0 ≤ Int16.ofInt port

/-- The entry that the source makes of an offer. -/
def stored (offer : List Char × ℤ) : List Char × ℕ :=
  (offer.1, (Int16.ofInt offer.2).toUInt16.toNat)

private theorem stoi_range {text : List Char} {value : ℤ} (read : stoi text = some value) :
    -2 ^ 31 ≤ value ∧ value < 2 ^ 31 := by
  simp only [stoi, Option.ite_none_left_eq_some, Option.ite_none_right_eq_some,
    Option.some.injEq] at read
  obtain ⟨-, range, rfl⟩ := read
  exact range

theorem toInt_ofInt_stoi {row : Row} {index : ℕ} {value : ℤ}
    (read : row[index]?.bind stoi = some value) : (Int32.ofInt value).toInt = value := by
  obtain ⟨text, -, read⟩ := Option.bind_eq_some_iff.mp read
  have range := stoi_range read
  rw [Int32.toInt_ofInt]
  change value.bmod (2 ^ 32) = value
  exact Int.bmod_eq_of_le_mul_two (by omega) (by omega)

theorem valid_iff {row : Row} {value : ℤ} (read : row[0]?.bind stoi = some value) :
    invalidNode < Int32.ofInt value ↔ 0 ≤ value := by
  rw [Int32.lt_iff_toInt_lt, toInt_ofInt_stoi read]
  change -1 < value ↔ 0 ≤ value
  omega

theorem kept_iff (port : ℤ) : Kept port = true ↔ port % 65536 < 32768 := by
  rw [Kept, decide_eq_true_eq, Int16.le_iff_toInt_le, Int16.toInt_ofInt]
  change 0 ≤ port.bmod 65536 ↔ port % 65536 < 32768
  rw [Int.bmod_def]
  omega

/-- A kept port is stored modulo 2^16. -/
theorem stored_of_kept {offer : List Char × ℤ} (kept : Kept offer.2 = true) :
    stored offer = (offer.1, (offer.2 % 65536).toNat) := by
  have small := (kept_iff _).mp kept
  have nonneg : 0 ≤ Int16.ofInt offer.2 := of_decide_eq_true kept
  rw [stored, Int16.toNat_toUInt16_of_le nonneg]
  have value : (Int16.ofInt offer.2).toInt = offer.2 % 65536 := by
    rw [Int16.toInt_ofInt]
    change offer.2.bmod 65536 = _
    rw [Int.bmod_def]
    omega
  exact congrArg (Prod.mk offer.1) (congrArg Int.toNat value)

namespace Book

variable {book next : Book} {row : Row}

/-- What one row can do to the book. -/
inductive Added (book : Book) (row : Row) : Book → Prop where
  | skipped (value : ℤ) (read : row[0]?.bind stoi = some value) (negative : value < 0) :
      Added book row book
  | noPort (id : NodeId) (ip : List Char) (port : ℤ) (valid : invalidNode < id)
      (offered : offer id row = some (ip, port)) (dropped : Kept port = false) : Added book row book
  | duplicate (id : NodeId) (ip : List Char) (port : ℤ) (valid : invalidNode < id)
      (offered : offer id row = some (ip, port)) (known : id ∈ book.ids) : Added book row book
  | entered (id : NodeId) (ip : List Char) (port : ℤ) (valid : invalidNode < id)
      (offered : offer id row = some (ip, port)) (kept : Kept port = true) (fresh : id ∉ book.ids) :
      Added book row (book.emplace ⟨.none, id, ip, (Int16.ofInt port).toUInt16⟩ valid fresh)

private theorem offer_eq {value port : ℤ} {ip : List Char} (read : row[0]?.bind stoi = some value)
    (address : row[1]? = some ip) (number : row[2]?.bind stoi = some port) :
    offer (Int32.ofInt value) row = some (ip, port) := by
  rw [offer, toInt_ofInt_stoi read, if_pos read, address, number]
  rfl

private theorem added_addRow (added : book.addRow row = some next) :
    RowOk row ∧ Added book row next := by
  obtain ⟨value, read, added⟩ := Option.bind_eq_some_iff.mp added
  dsimp only at added
  split at added
  case isTrue valid =>
    obtain ⟨ip, address, added⟩ := Option.bind_eq_some_iff.mp added
    obtain ⟨port, number, added⟩ := Option.bind_eq_some_iff.mp added
    have offered := offer_eq read address number
    refine ⟨⟨value, read, fun _ => ⟨ip, port, address, number⟩⟩, ?_⟩
    split at added
    case isTrue negative =>
      cases added
      exact .noPort _ ip port valid offered (decide_eq_false (Int16.not_le.mpr negative))
    case isFalse positive =>
      have kept : Kept port = true := decide_eq_true (Int16.not_lt.mp positive)
      split at added
      case isTrue fresh =>
        cases added
        exact .entered _ ip port valid offered kept fresh
      case isFalse known =>
        cases added
        exact .duplicate _ ip port valid offered (not_not.mp known)
  case isFalse invalid =>
    cases added
    have negative : value < 0 := by
      rw [valid_iff read] at invalid
      omega
    exact ⟨⟨value, read, fun nonneg => absurd nonneg (by omega)⟩, .skipped value read negative⟩

private theorem addRow_of_rowOk (book : Book) (ok : RowOk row) :
    ∃ next, book.addRow row = some next := by
  obtain ⟨value, read, cells⟩ := ok
  unfold addRow
  rw [read, Option.bind_some]
  dsimp only
  split
  case isTrue valid =>
    obtain ⟨ip, port, address, number⟩ := cells ((valid_iff read).mp valid)
    rw [address, number]
    simp only [Option.bind_some]
    repeat' split
    all_goals exact ⟨_, rfl⟩
  case isFalse => exact ⟨_, rfl⟩

/-- A row speaks about one id. -/
theorem offer_other {id other : NodeId} {said : List Char × ℤ} (offered : offer id row = some said)
    (different : other ≠ id) : offer other row = none := by
  simp only [offer, Option.ite_none_right_eq_some] at offered ⊢
  rw [if_neg]
  intro same
  exact different (Int32.toInt_inj.mp (Option.some.inj (same.symm.trans offered.1)))

/-- What an entry of the book says about its id. -/
def said (addr : NodeAddress) : List Char × ℕ := (addr.ip, addr.port.toNat)

private theorem find?_emplace (addr : NodeAddress) (valid : invalidNode < addr.id)
    (fresh : addr.id ∉ book.ids)
    (id : NodeId) : (book.emplace addr valid fresh).find? id =
      (book.find? id).or (if addr.id = id then some addr else none) := by
  simp only [find?, emplace, List.find?_append, List.find?_singleton, decide_eq_true_eq]

/-- A row adds what it says about an id that the book does not have, if the port is kept. -/
theorem Added.find? (added : Added book row next) {id : NodeId} (valid : invalidNode < id) :
    (next.find? id).map said = ((book.find? id).map said).or
      (((offer id row).filter fun offer => Kept offer.2).map stored) := by
  cases added with
  | skipped value read negative =>
    have silent : offer id row = none := by
      have above : -1 < id.toInt := Int32.lt_iff_toInt_lt.mp valid
      rw [offer, read, if_neg]
      intro same
      have equal := Option.some.inj same
      omega
    simp [silent]
  | noPort spoken ip port _ offered dropped =>
    by_cases same : id = spoken
    · subst same
      simp [offered, Option.filter, dropped]
    · simp [offer_other offered same]
  | duplicate spoken ip port _ offered known =>
    by_cases same : id = spoken
    · subst same
      obtain ⟨entry, found⟩ := mem_ids.mp known
      simp [found]
    · simp [offer_other offered same]
  | entered spoken ip port _ offered kept fresh =>
    rw [find?_emplace]
    by_cases same : id = spoken
    · subst same
      have unknown : book.find? id = none := by
        by_contra some
        exact fresh (mem_ids.mpr (Option.ne_none_iff_exists'.mp some))
      simp [unknown, offered, Option.filter, kept, said, stored]
    · have different : ¬ spoken = id := fun equal => same equal.symm
      simp [offer_other offered same, different]

/-- All rows together add the first thing said about each id with a port that is kept. -/
theorem find?_addRows {rows : List Row} {final : Book} (added : book.addRows rows = some final) :
    (∀ row ∈ rows, RowOk row) ∧ ∀ id, invalidNode < id →
      (final.find? id).map said = ((book.find? id).map said).or
        (((offers rows id).find? fun offer => Kept offer.2).map stored) := by
  induction rows generalizing book with
  | nil =>
    cases added
    exact ⟨by simp, fun id _ => by simp [offers]⟩
  | cons row rows ih =>
    obtain ⟨next, first, added⟩ := Option.bind_eq_some_iff.mp added
    obtain ⟨ok, effect⟩ := added_addRow first
    obtain ⟨oks, rest⟩ := ih added
    refine ⟨List.forall_mem_cons.mpr ⟨ok, oks⟩, ?_⟩
    intro id valid
    have split : offers (row :: rows) id = (offer id row).toList ++ offers rows id := by
      simp only [offers, List.filterMap_cons]
      cases offer id row <;> rfl
    rw [rest id valid, effect.find? valid, split]
    cases offered : offer id row with
    | none => simp
    | some pair =>
      cases kept : Kept pair.2 <;> simp [Option.filter, kept]

private theorem addRows_of_rowOk {rows : List Row} (book : Book) (oks : ∀ row ∈ rows, RowOk row) :
    ∃ final, book.addRows rows = some final := by
  induction rows generalizing book with
  | nil => exact ⟨book, rfl⟩
  | cons row rows ih =>
    obtain ⟨ok, oks⟩ := List.forall_mem_cons.mp oks
    obtain ⟨next, first⟩ := addRow_of_rowOk book ok
    obtain ⟨final, rest⟩ := ih next oks
    exact ⟨final, by rw [addRows, List.foldlM_cons, first]; exact rest⟩

end Book

/-- The first thing said about an id with a port number. -/
def firstInRange (offers : List (List Char × ℤ)) : Option (List Char × ℕ) :=
  (offers.find? fun offer => InRange offer.2).map fun offer => (offer.1, offer.2.toNat)

/-- The first thing said with a port that is a number or kept has a port up to 32767, or its port is
no number and the first port number behind it comes with the same address and is what the source
makes of it. -/
def Unambiguous (offers : List (List Char × ℤ)) : Prop :=
  ∀ offer, (offers.find? fun offer => InRange offer.2 || Kept offer.2) = some offer →
    (0 ≤ offer.2 ∧ offer.2 < 32768) ∨
      (InRange offer.2 = false ∧
        (offers.find? fun offer => InRange offer.2) = some (offer.1, offer.2 % 65536))

theorem inRange_iff (port : ℤ) : InRange port = true ↔ 0 ≤ port ∧ port ≤ 65535 := by
  rw [InRange, Bool.and_eq_true, decide_eq_true_eq, decide_eq_true_eq]

/-- A kept offer in front agrees with the first port number behind it iff that is what is stored. -/
private theorem stored_eq_firstInRange_iff {offer : List Char × ℤ} (kept : Kept offer.2 = true)
    (rest : List (List Char × ℤ)) :
    some (stored offer) = firstInRange rest ↔
      (rest.find? fun offer => InRange offer.2) = some (offer.1, offer.2 % 65536) := by
  rw [stored_of_kept kept, firstInRange]
  constructor
  · intro same
    obtain ⟨⟨ip, port⟩, found, equal⟩ := Option.map_eq_some_iff.mp same.symm
    have range := (inRange_iff port).mp (by simpa using List.find?_some found)
    obtain ⟨address, number⟩ := Prod.mk.inj equal
    have exact : port = offer.2 % 65536 := by
      dsimp only at number
      omega
    rw [found, ← exact, ← address]
  · intro found
    rw [found, Option.map_some]

/-- A port that is kept is stored below 2^15. -/
private theorem stored_lt {offer : List Char × ℤ} (kept : Kept offer.2 = true) :
    (stored offer).2 < 32768 := by
  have small := (kept_iff _).mp kept
  rw [stored_of_kept kept]
  dsimp only
  omega

/-- Keeping the first kept port agrees with keeping the first port number iff nothing is
ambiguous. -/
private theorem firstKept_eq_iff (offers : List (List Char × ℤ)) :
    (offers.find? fun offer => Kept offer.2).map stored = firstInRange offers ↔
      Unambiguous offers := by
  induction offers with
  | nil => simp [firstInRange, Unambiguous]
  | cons offer rest ih =>
    cases range : InRange offer.2 <;> cases kept : Kept offer.2
    case false.false => simpa [firstInRange, Unambiguous, List.find?_cons, range, kept] using ih
    case false.true =>
      have small := (kept_iff _).mp kept
      have noNumber : ¬ (0 ≤ offer.2 ∧ offer.2 < 32768) := by
        have outside := mt (inRange_iff offer.2).mpr (Bool.eq_false_iff.mp range)
        omega
      have behind : firstInRange (offer :: rest) = firstInRange rest := by
        rw [firstInRange, List.find?_cons_of_neg (by simp [range]), firstInRange]
      rw [behind, List.find?_cons_of_pos (by exact kept), Option.map_some,
        stored_eq_firstInRange_iff kept]
      simp only [Unambiguous, List.find?_cons, range, kept, Bool.false_or, Option.some.injEq,
        forall_eq', noNumber, false_or, true_and]
    case true.false =>
      have large : ¬ (0 ≤ offer.2 ∧ offer.2 < 32768) := by
        have outside := mt (kept_iff offer.2).mpr (Bool.eq_false_iff.mp kept)
        omega
      have number := (inRange_iff _).mp range
      simp only [Unambiguous, firstInRange, List.find?_cons, range, kept, Bool.true_or,
        Option.map_some, Option.some.injEq, forall_eq', large, false_or, Bool.true_eq_false,
        false_and, iff_false]
      intro same
      obtain ⟨other, found, equal⟩ := Option.map_eq_some_iff.mp same
      have below := (stored_lt : Kept other.2 = true → _) (by simpa using List.find?_some found)
      rw [equal] at below
      dsimp only at below
      omega
    case true.true =>
      have small := (kept_iff _).mp kept
      have number := (inRange_iff _).mp range
      simp only [Unambiguous, firstInRange, List.find?_cons, range, kept, Bool.true_or,
        Option.map_some, Option.some.injEq, forall_eq', stored_of_kept kept, Prod.mk.injEq, true_and]
      omega

/-- `init_address_book` of an empty book neither throws nor reads a column that is not there, and
the book says about every id what the first row with that id and a port number says, and nothing
about other ids. -/
def BookExact (file : Option (List Char)) (myId : NodeId) : Prop :=
  ∃ book found, Book.empty.initAddressBook file myId = some (book, found) ∧
    ∀ id, (book.find? id).map Book.said =
      if invalidNode < id then firstInRange (offers (parseCsvFile file) id) else none

/-- Without an exception the book holds what the rows have added, whatever kinds it gives them. -/
theorem said_initAddressBook (file : Option (List Char)) (myId : NodeId) (book : Book) :
    (∃ found, Book.empty.initAddressBook file myId = some (book, found)) →
      ∃ listed, Book.empty.addRows (parseCsvFile file) = some listed ∧
        ∀ id, (book.find? id).map Book.said = (listed.find? id).map Book.said := by
  rintro ⟨found, initialised⟩
  unfold Book.initAddressBook at initialised
  split at initialised
  case isTrue empty =>
    cases initialised
    exact ⟨Book.empty, by rw [empty]; rfl, fun _ => rfl⟩
  case isFalse =>
    obtain ⟨listed, added, result⟩ := Option.map_eq_some_iff.mp initialised
    refine ⟨listed, added, fun id => ?_⟩
    split at result
    case h_1 =>
      cases result
      rfl
    case h_2 self known =>
      cases result
      rw [Book.find?_setKinds, Option.map_map]
      rfl

private theorem initAddressBook_isSome {file : Option (List Char)} {listed : Book} (myId : NodeId)
    (added : Book.empty.addRows (parseCsvFile file) = some listed) :
    ∃ book found, Book.empty.initAddressBook file myId = some (book, found) := by
  unfold Book.initAddressBook
  split
  · exact ⟨_, _, rfl⟩
  · rw [added, Option.map_some]
    split
    · exact ⟨_, _, rfl⟩
    · exact ⟨_, _, rfl⟩

/-- No id up to `INVALID_NODE` is in a book. -/
private theorem find?_invalid (book : Book) {id : NodeId} (invalid : ¬ invalidNode < id) :
    book.find? id = none := by
  by_contra known
  obtain ⟨entry, found⟩ := Option.ne_none_iff_exists'.mp known
  have valid := book.valid entry (Book.find?_mem found)
  rw [Book.find?_id found] at valid
  exact invalid valid

/-- The address book is exact iff the source can read all cells that it needs and, for each id, no
port from 32768 on and none outside 0..65535 is in front of the row that counts. -/
theorem address_book_exact_iff (file : Option (List Char)) (myId : NodeId) :
    BookExact file myId ↔ (∀ row ∈ parseCsvFile file, RowOk row) ∧
      ∀ id, invalidNode < id → Unambiguous (offers (parseCsvFile file) id) := by
  have exact_of {listed : Book} (added : Book.empty.addRows (parseCsvFile file) = some listed)
      {id : NodeId} (valid : invalidNode < id) :
      (listed.find? id).map Book.said = firstInRange (offers (parseCsvFile file) id) ↔
        Unambiguous (offers (parseCsvFile file) id) := by
    rw [(Book.find?_addRows added).2 id valid, ← firstKept_eq_iff]
    rfl
  constructor
  · rintro ⟨book, found, initialised, exact⟩
    obtain ⟨listed, added, same⟩ := said_initAddressBook file myId book ⟨found, initialised⟩
    refine ⟨(Book.find?_addRows added).1, fun id valid => ?_⟩
    rw [← exact_of added valid, ← same, exact, if_pos valid]
  · rintro ⟨oks, clear⟩
    obtain ⟨listed, added⟩ := Book.addRows_of_rowOk .empty oks
    obtain ⟨book, found, initialised⟩ := initAddressBook_isSome myId added
    obtain ⟨_, again, same⟩ := said_initAddressBook file myId book ⟨found, initialised⟩
    obtain rfl := Option.some.inj (again.symm.trans added)
    refine ⟨book, found, initialised, fun id => ?_⟩
    split
    case isTrue valid => rw [same, (exact_of added valid).mpr (clear id valid)]
    case isFalse invalid => rw [find?_invalid book invalid, Option.map_none]

/-- One row with port 40000, which the source skips. -/
theorem address_book_skips_port : ¬ ∀ (file : Option (List Char)) (myId : NodeId),
    (∀ row ∈ parseCsvFile file, RowOk row) → BookExact file myId := by
  intro claim
  let file : List Char := ['0', ',', 'h', ',', '4', '0', '0', '0', '0']
  have rows : parseCsvFile (some file) = [[['0'], ['h'], ['4', '0', '0', '0', '0']]] := rfl
  have ok : ∀ row ∈ parseCsvFile (some file), RowOk row := by
    rw [rows]
    simp only [List.mem_singleton, forall_eq]
    exact ⟨0, rfl, fun _ => ⟨['h'], 40000, rfl, rfl⟩⟩
  obtain ⟨book, found, initialised, exact⟩ := claim (some file) 0 ok
  have skipped : Book.empty.initAddressBook (some file) 0 = some (Book.empty, false) := rfl
  obtain ⟨rfl, rfl⟩ := Prod.mk.inj (Option.some.inj (skipped.symm.trans initialised))
  have listed : (Book.empty.find? 0).map Book.said = some (['h'], 40000) := (exact 0).trans rfl
  exact absurd listed (by decide)

end Eroil.Addr
