import Eroil.Proofs.AddressBook
import Eroil.Proofs.Startup.Text

/-! # Lists of peers that are read back

An address book whose entries were written as rows, among empty lines and comments, is read back as
it was, with the kinds that the node gives to its peers. Ports from 32768 on do not come back.
-/

namespace Eroil.Addr

/-! ## Rows -/

/-- A line of a peer list: one that is skipped, or a row with zeros in front of its id. -/
inductive PeerLine where
  | note (text : List Char)
  | peer (zeros : ℕ) (addr : NodeAddress)

/-- The cells of a row. -/
def cells (row : ℕ × NodeAddress) : Row :=
  [List.replicate row.1 '0' ++ Nat.toDigits 10 row.2.id.toInt.toNat, row.2.ip,
    Nat.toDigits 10 row.2.port.toNat]

namespace PeerLine

def text : PeerLine → List Char
  | .note text => text
  | .peer zeros addr => [','].intercalate (cells (zeros, addr))

/-- A note is empty or a comment; an address is no line or column break. -/
def Ok : PeerLine → Prop
  | .note text => '\n' ∉ text ∧ (text = [] ∨ text.head? = some '#')
  | .peer _ addr => '\n' ∉ addr.ip ∧ ',' ∉ addr.ip

def row? : PeerLine → Option (ℕ × NodeAddress)
  | .note _ => none
  | .peer zeros addr => some (zeros, addr)

end PeerLine

/-- A number is written without line or column breaks. -/
theorem not_mem_digits {c : Char} (other : c.isDigit = false) (zeros n : ℕ) :
    c ∉ List.replicate zeros '0' ++ Nat.toDigits 10 n := by
  intro member
  have digit : c.isDigit = true := by
    rcases List.mem_append.mp member with zero | digit
    · rw [List.eq_of_mem_replicate zero]
      rfl
    · exact Nat.isDigit_of_mem_toDigits (by decide) le_rfl digit
  rw [digit] at other
  cases other

theorem not_mem_toDigits {c : Char} (other : c.isDigit = false) (n : ℕ) :
    c ∉ Nat.toDigits 10 n := not_mem_digits other 0 n

theorem text_peer (zeros : ℕ) (addr : NodeAddress) :
    (PeerLine.peer zeros addr).text =
      (List.replicate zeros '0' ++ Nat.toDigits 10 addr.id.toInt.toNat) ++
        ',' :: (addr.ip ++ ',' :: Nat.toDigits 10 addr.port.toNat) := by
  simp [PeerLine.text, cells, List.intercalate, List.intersperse]

private theorem whole_of_ok {line : PeerLine} (ok : line.Ok) : '\n' ∉ line.text := by
  cases line with
  | note text => exact ok.1
  | peer zeros addr =>
    have noId := not_mem_digits (show '\n'.isDigit = false by decide) zeros addr.id.toInt.toNat
    have noPort := not_mem_toDigits (show '\n'.isDigit = false by decide) addr.port.toNat
    rw [text_peer]
    generalize List.replicate zeros '0' ++ Nat.toDigits 10 addr.id.toInt.toNat = id at noId ⊢
    simp [noId, noPort, ok.1]

private theorem getlines_cells {row : ℕ × NodeAddress} (plain : ',' ∉ row.2.ip) :
    getlines ',' ([','].intercalate (cells row)) = cells row := by
  have whole : ∀ cell ∈ cells row, ',' ∉ cell := by
    simp only [cells, List.forall_mem_cons, List.not_mem_nil, false_implies, implies_true, and_true]
    exact ⟨not_mem_digits (by decide) _ _, plain, not_mem_toDigits (by decide) _⟩
  rw [getlines, List.splitOn_intercalate _ whole (List.cons_ne_nil _ _)]
  exact if_neg fun last => Nat.toDigits_ne_nil (Option.some.inj last)

/-- The file has a row for each of its peers. -/
private theorem parseCsvFile_fileText {lines : List PeerLine} (ok : ∀ line ∈ lines, line.Ok)
    (ended : Bool) :
    parseCsvFile (some (fileText (lines.map PeerLine.text) ended)) =
      (lines.filterMap PeerLine.row?).map cells := by
  have whole : ∀ text ∈ lines.map PeerLine.text, '\n' ∉ text := by
    intro text member
    obtain ⟨line, listed, rfl⟩ := List.mem_map.mp member
    exact whole_of_ok (ok line listed)
  have nonempty (texts : List (List Char)) :
      texts.filter (fun line => line ≠ [] ∧ line.head? ≠ some '#') =
        (texts.filter (· ≠ [])).filter fun line => line.head? ≠ some '#' := by
    rw [List.filter_filter]
    congr 1
    funext line
    simp [Bool.and_comm]
  rw [parseCsvFile, nonempty, getlines_fileText whole, ← nonempty]
  clear whole nonempty
  induction lines with
  | nil => rfl
  | cons line rest ih =>
    obtain ⟨first, others⟩ := List.forall_mem_cons.mp ok
    rw [List.map_cons]
    cases line with
    | note text =>
      rw [List.filter_cons_of_neg, List.filterMap_cons_none rfl]
      · exact ih others
      · rcases first.2 with empty | comment <;> simp [PeerLine.text, *]
    | peer zeros addr =>
      have counts : (PeerLine.peer zeros addr).text ≠ [] ∧
          (PeerLine.peer zeros addr).text.head? ≠ some '#' := by
        have plain : '#' ∉ List.replicate zeros '0' ++ Nat.toDigits 10 addr.id.toInt.toNat :=
          not_mem_digits (by decide) _ _
        obtain ⟨c, text, same⟩ := List.exists_cons_of_ne_nil
          (List.append_ne_nil_of_right_ne_nil (List.replicate zeros '0')
            (Nat.toDigits_ne_nil (n := addr.id.toInt.toNat) (b := 10)))
        rw [text_peer, same]
        rw [same] at plain
        exact ⟨List.cons_ne_nil _ _, fun first => plain (Option.some.inj first ▸ List.mem_cons_self)⟩
      rw [List.filter_cons_of_pos (by simpa using counts), List.map_cons, ih others]
      exact congrArg (· :: _) (getlines_cells first.2)

namespace Book

/-! ## The book -/

/-- The entries of a book with ports up to 32767, without kinds. -/
def readable (book : Book) : List NodeAddress :=
  (book.entries.filter fun addr => addr.port < 32768).map fun addr => { addr with kind := .none }

/-- A list of peers without the kinds, as the source stores it. -/
def fromFile (book : Book) : Book where
  entries := book.readable
  distinct := by
    rw [readable, List.map_map]
    exact book.distinct.sublist (List.filter_sublist.map _)
  valid := by
    intro other member
    obtain ⟨addr, kept, rfl⟩ := List.mem_map.mp member
    exact book.valid addr (List.mem_of_mem_filter kept)

theorem ext {one other : Book} (same : one.entries = other.entries) : one = other := by
  cases one
  cases other
  cases same
  rfl

/-- A book with given entries in any order. -/
def reordered (book : Book) {entries : List NodeAddress}
    (same : entries.Perm book.entries) : Book where
  entries := entries
  distinct := (same.map NodeAddress.id).nodup_iff.mpr book.distinct
  valid := fun addr member => book.valid addr (same.mem_iff.mp member)

/-- The order of the entries does not matter for a lookup. -/
theorem find?_perm {one other : Book} (same : one.entries.Perm other.entries) (id : NodeId) :
    one.find? id = other.find? id := by
  cases found : other.find? id with
  | some addr =>
    have member := same.mem_iff.mpr (find?_mem found)
    rw [← find?_id found]
    exact find?_of_mem member
  | none =>
    rw [find?, List.find?_eq_none] at found ⊢
    exact fun addr member => found addr (same.mem_iff.mp member)

theorem setKinds_perm {one other : Book} (same : one.entries.Perm other.entries)
    (kind : NodeAddress → RouteKind) :
    (one.setKinds kind).entries.Perm (other.setKinds kind).entries :=
  same.map _

theorem fromFile_perm {one other : Book} (same : one.entries.Perm other.entries) :
    one.fromFile.entries.Perm other.fromFile.entries := (same.filter _).map _

private theorem stoi_id (zeros : ℕ) {id : NodeId} (valid : invalidNode < id) :
    stoi (List.replicate zeros '0' ++ Nat.toDigits 10 id.toInt.toNat) = some id.toInt := by
  have bound := id.toInt_lt
  have above : -1 < id.toInt := Int32.lt_iff_toInt_lt.mp valid
  have same : (id.toInt.toNat : ℤ) = id.toInt := Int.toNat_of_nonneg (by omega)
  rw [stoi_toDigits zeros (by omega), same]

theorem kept_port (port : UInt16) : Kept port.toNat = decide (port < 32768) := by
  rw [Bool.eq_iff_iff, kept_iff, decide_eq_true_eq, UInt16.lt_iff_toNat_lt]
  have bound := port.toNat_lt
  change (port.toNat : ℤ) % 65536 < 32768 ↔ port.toNat < 32768
  omega

private theorem toUInt16_port {port : UInt16} (small : port < 32768) :
    (Int16.ofInt port.toNat).toUInt16 = port := by
  have kept : Kept (([] : List Char), (port.toNat : ℤ)).2 = true :=
    (kept_port port).trans (decide_eq_true small)
  have same : (Int16.ofInt port.toNat).toUInt16.toNat = ((port.toNat : ℤ) % 65536).toNat :=
    congrArg Prod.snd (stored_of_kept kept)
  have bound := port.toNat_lt
  exact UInt16.toNat_inj.mp (by omega)

/-- The row of a peer that the book does not have. -/
private theorem addRow_cells (book : Book) (zeros : ℕ) {addr : NodeAddress}
    (valid : invalidNode < addr.id)
    (fresh : addr.id ∉ book.ids) :
    book.addRow (cells (zeros, addr)) =
      some (if addr.port < 32768 then book.emplace { addr with kind := .none } valid fresh
        else book) := by
  rw [addRow]
  simp only [cells, List.getElem?_cons_zero, List.getElem?_cons_succ, Option.bind_some,
    stoi_id zeros valid, stoi_port, Int32.ofInt_toInt, dif_pos valid, dif_pos fresh]
  by_cases small : addr.port < 32768
  · have kept : ¬ Int16.ofInt addr.port.toNat < 0 :=
      Int16.not_lt.mpr (of_decide_eq_true ((kept_port _).trans (decide_eq_true small)))
    rw [if_neg kept, if_pos small, toUInt16_port small]
  · have dropped : Int16.ofInt addr.port.toNat < 0 :=
      Int16.not_le.mp (of_decide_eq_false ((kept_port _).trans (decide_eq_false small)))
    rw [if_pos dropped, if_neg small]

/-- The rows of peers put those with small ports into the book, in their order. -/
private theorem addRows_cells {rows : List (ℕ × NodeAddress)} {book final : Book}
    (distinct : (rows.map fun row => row.2.id).Nodup) (valid : ∀ row ∈ rows, invalidNode < row.2.id)
    (fresh : ∀ row ∈ rows, row.2.id ∉ book.ids)
    (entries : final.entries = book.entries ++
      ((rows.map Prod.snd).filter fun addr => addr.port < 32768).map
        fun addr => { addr with kind := .none }) :
    book.addRows (rows.map cells) = some final := by
  induction rows generalizing book with
  | nil =>
    rw [List.map_nil, List.filter_nil, List.map_nil, List.append_nil] at entries
    exact congrArg some (ext entries.symm)
  | cons row rest ih =>
    obtain ⟨zeros, addr⟩ := row
    obtain ⟨alone, distinct⟩ := List.nodup_cons.mp distinct
    obtain ⟨here, valid⟩ := List.forall_mem_cons.mp valid
    obtain ⟨unknown, fresh⟩ := List.forall_mem_cons.mp fresh
    rw [List.map_cons, addRows, List.foldlM_cons, addRow_cells book zeros here unknown]
    by_cases small : addr.port < 32768
    · rw [if_pos small]
      refine ih distinct valid ?_ ?_
      · intro other later
        have different : other.2.id ≠ addr.id := by
          intro same
          exact alone (List.mem_map.mpr ⟨other, later, same⟩)
        simpa [ids, emplace, different] using fresh other later
      · rw [entries, List.map_cons, List.filter_cons_of_pos (by simpa using small), List.map_cons]
        simp [emplace]
    · rw [if_neg small]
      refine ih distinct valid fresh ?_
      rw [entries, List.map_cons, List.filter_cons_of_neg (by simpa using small)]

/-- The rows of a list that a book was written as put the book together again, up to ports from
32768 on. -/
theorem addRows_fileText {lines : List PeerLine} (ok : ∀ line ∈ lines, line.Ok) (ended : Bool)
    {book : Book} (written : (lines.filterMap PeerLine.row?).map Prod.snd = book.entries) :
    empty.addRows (parseCsvFile (some (fileText (lines.map PeerLine.text) ended))) =
      some book.fromFile := by
  rw [parseCsvFile_fileText ok]
  generalize lines.filterMap PeerLine.row? = rows at written
  refine addRows_cells ?_ ?_ (fun _ _ => List.not_mem_nil) ?_
  · have distinct := book.distinct
    rwa [← written, List.map_map] at distinct
  · intro row listed
    exact book.valid row.2 (written ▸ List.mem_map_of_mem listed)
  · rw [written]
    rfl

/-- What a node makes of a list, whether it is listed itself or not. -/
theorem initManager_elim {file : Option (List Char)} {listed : Book} (mode : ManagerMode)
    (id : NodeId) (rows : empty.addRows (parseCsvFile file) = some listed) :
    initManager empty file id mode =
      some ((listed.find? id).elim (listed, false) fun self =>
        (listed.setKinds (peerKind mode self), true)) := by
  cases found : listed.find? id with
  | some self => exact initManager_eq rows found
  | none =>
    have unlisted : initAddressBook empty file id = some (listed, false) := by
      rw [initAddressBook, rows]
      split
      · next none =>
        rw [none] at rows
        cases rows
        rfl
      · rw [Option.map_some]
        simp only [found]
    rw [initManager, unlisted]
    rfl

end Book

end Eroil.Addr
