import Eroil.Proofs.Startup.Config
import Eroil.Proofs.Startup.PeerList

/-! # What a node starts with

The manager starts with the configuration and the peers that were written into the two files of its
node.
-/

namespace Eroil.Cfg

open Lib Addr

/-- A node whose files were written from a configuration and an address book starts with this
configuration and, if the book lists it with a port up to 32767, with the peers of the book that
have such a port, each with the kind that the mode of the configuration asks for. The book is a set
of addresses: its rows may stand in any order, and nothing is said of the order of the result. -/
theorem node_starts {lines : List Line} (ok : ∀ line ∈ lines, line.Ok) {cfg : ManagerConfig}
    (group : Char.ofNat 0 ∉ cfg.mcastCfg.groupIp) (bind : Char.ofNat 0 ∉ cfg.mcastCfg.bindIp)
    (tells : ∀ setting ∈ cfg.settings,
      lastValue setting.1 (defaults ++ lines.filterMap Line.setting) = some setting.2)
    {rows : List PeerLine} (rowsOk : ∀ row ∈ rows, row.Ok) {book : Book}
    (written : ((rows.filterMap PeerLine.row?).map Prod.snd).Perm book.entries)
    (ended rowsEnded : Bool) :
    ∃ started found, initManager (some (fileText (lines.map Line.text) ended))
        (some (fileText (rows.map PeerLine.text) rowsEnded)) cfg.id = some (cfg, started, found) ∧
      match book.fromFile.find? cfg.id with
      | none => started.entries.Perm book.fromFile.entries ∧ found = false
      | some self =>
          started.entries.Perm (book.fromFile.setKinds (Book.peerKind cfg.mode self)).entries ∧
            found = true := by
  have peers : Book.empty.addRows
      (parseCsvFile (some (fileText (rows.map PeerLine.text) rowsEnded))) =
        some (book.reordered written).fromFile := Book.addRows_fileText rowsOk rowsEnded rfl
  have same : (book.reordered written).fromFile.entries.Perm book.fromFile.entries :=
    Book.fromFile_perm written
  have starts := Book.initManager_elim cfg.mode cfg.id peers
  rw [Book.find?_perm same] at starts
  rw [initManager, config_round_trip ok ended group bind tells, Option.bind_some, starts,
    Option.map_some]
  cases book.fromFile.find? cfg.id with
  | none => exact ⟨_, _, rfl, same, rfl⟩
  | some self => exact ⟨_, _, rfl, Book.setKinds_perm same _, rfl⟩

/-! ## Two nodes of a simulated network -/

def simLines : List Line :=
  [.note "# no spaces between values".toList, .set "mode".toList simNetworkText, .note [],
    .set "mcast_port".toList "30002".toList]

def simConfig : ManagerConfig :=
  ⟨4, .simNetwork, { UdpMcastConfig.default with port := 30002 }⟩

def simRows : List PeerLine :=
  [.note "# comments are ignored".toList, .peer 1 ⟨.none, 4, "127.0.0.1".toList, 8084⟩,
    .peer 1 ⟨.none, 5, "127.0.0.1".toList, 8085⟩, .peer 0 ⟨.none, 12, "127.0.0.1".toList, 40000⟩]

def simBook : Book where
  entries := [⟨.none, 5, "127.0.0.1".toList, 8085⟩, ⟨.none, 12, "127.0.0.1".toList, 40000⟩,
    ⟨.none, 4, "127.0.0.1".toList, 8084⟩]
  distinct := by decide
  valid := by decide

theorem node_starts_sim :
    ∃ started : Book, initManager (some (fileText (simLines.map Line.text) false))
        (some (fileText (simRows.map PeerLine.text) true)) 4 = some (simConfig, started, true) ∧
      started.entries.Perm [⟨.self, 4, "127.0.0.1".toList, 8084⟩,
        ⟨.socket, 5, "127.0.0.1".toList, 8085⟩] := by
  have ok : ∀ line ∈ simLines, line.Ok := by
    simp only [simLines, List.forall_mem_cons]
    exact ⟨⟨by decide, .inl (by decide)⟩, ⟨by decide, by decide, by decide⟩,
      ⟨by decide, .inr (by decide)⟩, ⟨by decide, by decide, by decide⟩, by simp⟩
  have rowsOk : ∀ row ∈ simRows, row.Ok := by
    simp only [simRows, List.forall_mem_cons]
    exact ⟨⟨by decide, .inr (by decide)⟩, ⟨by decide, by decide⟩, ⟨by decide, by decide⟩,
      ⟨by decide, by decide⟩, by simp⟩
  obtain ⟨started, found, starts, listed⟩ :=
    @node_starts simLines ok simConfig (by decide) (by decide)
    (by decide) simRows rowsOk simBook (by decide) false true
  have self : simBook.fromFile.find? simConfig.id = some ⟨.none, 4, "127.0.0.1".toList, 8084⟩ := by
    decide
  rw [self] at listed
  obtain ⟨peers, rfl⟩ := listed
  exact ⟨started, starts, peers.trans (by decide)⟩

end Eroil.Cfg
