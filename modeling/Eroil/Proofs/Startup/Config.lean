import Eroil.Lib.Assignments
import Eroil.Model.Config
import Eroil.Proofs.Startup.Text

/-! # Configuration files that are read back

A configuration that was written as assignments, in any order and among any other lines, is read
back as it was; a setting that is missing has its default.
-/

namespace Eroil.Cfg

open Lib Addr

/-! ## Settings -/

/-- A line of a configuration file: one that sets nothing, or an assignment. -/
inductive Line where
  | note (text : List Char)
  | set (key value : List Char)

namespace Line

def text : Line → List Char
  | .note text => text
  | .set key value => key ++ '=' :: value

/-- A note is empty, a comment or without `=`; a key is neither a comment nor does it have a `=`. -/
def Ok (line : Line) : Prop :=
  '\n' ∉ line.text ∧
    match line with
    | .note text => text.head? = some '#' ∨ '=' ∉ text
    | .set key _ => key.head? ≠ some '#' ∧ '=' ∉ key

def setting : Line → Option (List Char × List Char)
  | .note _ => none
  | .set key value => some (key, value)

end Line

private theorem idxOf?_key {key : List Char} (plain : '=' ∉ key) (value : List Char) :
    (key ++ '=' :: value).idxOf? '=' = some key.length := by
  induction key with
  | nil => rfl
  | cons c rest ih =>
    obtain ⟨other, plain⟩ := not_or.mp (mt List.mem_cons.mpr plain)
    rw [List.cons_append, List.idxOf?_cons, if_neg (by simpa using Ne.symm other), ih plain,
      Option.map_some, List.length_cons]

/-- What a line of the file does. -/
private theorem parseKvLine_text (out : KeyValues) {line : Line} (ok : line.Ok) :
    parseKvLine out line.text =
      match line.setting with
      | none => out
      | some (key, value) => out.insert key value := by
  cases line with
  | note text =>
    obtain ⟨_, comment | plain⟩ := ok
    · simp only [parseKvLine, Line.text, Line.setting, comment, or_true, if_true]
    · have none : text.idxOf? '=' = none := List.idxOf?_eq_none_iff.mpr plain
      simp only [parseKvLine, Line.text, Line.setting, none, ite_self]
  | set key value =>
    obtain ⟨_, noComment, plain⟩ := ok
    have counts : ¬ (key ++ '=' :: value = [] ∨ (key ++ '=' :: value).head? = some '#') := by
      cases key with
      | nil => simp
      | cons c rest => simpa using noComment
    have rest : (key ++ '=' :: value).drop (key.length + 1) = value := by simp [List.drop_append]
    simp only [parseKvLine, Line.text, Line.setting, if_neg counts, idxOf?_key plain,
      List.take_left, rest]

/-- The last assignment to a key is the one that counts. -/
private theorem lookup_parseKvFile {lines : List Line} (ok : ∀ line ∈ lines, line.Ok) (ended : Bool)
    (key : List Char) :
    (parseKvFile (some (fileText (lines.map Line.text) ended))).lookup key =
      lastValue key (lines.filterMap Line.setting) := by
  -- Empty lines set nothing.
  have filtered (texts : List (List Char)) (out : KeyValues) :
      texts.foldl parseKvLine out = (texts.filter (· ≠ [])).foldl parseKvLine out := by
    induction texts generalizing out with
    | nil => rfl
    | cons text rest ih =>
      by_cases empty : text = []
      · subst empty
        exact ih out
      · rw [List.filter_cons_of_pos (by simpa using empty), List.foldl_cons, List.foldl_cons, ih]
  have inserted (out : KeyValues) : (lines.map Line.text).foldl parseKvLine out =
      (lines.filterMap Line.setting).foldl
        (fun table assignment => table.insert assignment.1 assignment.2) out := by
    clear filtered
    induction lines generalizing out with
    | nil => rfl
    | cons line rest ih =>
      obtain ⟨first, others⟩ := List.forall_mem_cons.mp ok
      rw [List.map_cons, List.foldl_cons, parseKvLine_text out first, ih others, List.filterMap_cons]
      cases line.setting <;> rfl
  have whole : ∀ text ∈ lines.map Line.text, '\n' ∉ text := by
    intro text member
    obtain ⟨line, listed, rfl⟩ := List.mem_map.mp member
    exact (ok line listed).1
  rw [parseKvFile, filtered, getlines_fileText whole, ← filtered, inserted, lookup_foldl_insert,
    AList.lookup_empty, Option.or_none]

/-! ## A configuration as settings -/

def modeText : ManagerMode → List Char
  | .normal => "Normal".toList
  | .shmOnly => shmOnlyText
  | .socketOnly => socketOnlyText
  | .simNetwork => simNetworkText

def flagText (flag : Bool) : List Char := if flag then "true".toList else "false".toList

/-- The settings of a configuration. -/
def ManagerConfig.settings (cfg : ManagerConfig) : List (List Char × List Char) :=
  [("mode".toList, modeText cfg.mode),
    ("mcast_group_ip".toList, cfg.mcastCfg.groupIp),
    ("mcast_port".toList, Nat.toDigits 10 cfg.mcastCfg.port.toNat),
    ("mcast_bind_ip".toList, cfg.mcastCfg.bindIp),
    ("mcast_ttl".toList, intText cfg.mcastCfg.ttl.toInt),
    ("mcast_loopback".toList, flagText cfg.mcastCfg.loopback),
    ("mcast_reuse_addr".toList, flagText cfg.mcastCfg.reuseAddr)]

/-- What a node without a configuration file uses. -/
def ManagerConfig.default (id : NodeId) : ManagerConfig := ⟨id, .normal, .default⟩

def defaults : List (List Char × List Char) := (ManagerConfig.default invalidNode).settings

namespace KeyValues

variable {kv : KeyValues}

/-- The value of a key, in the file or by default. -/
def Tells (kv : KeyValues) (key default value : List Char) : Prop :=
  (kv.lookup key).or (some default) = some value

theorem Tells.cases {key default value : List Char} (tells : kv.Tells key default value) :
    kv.lookup key = some value ∨ kv.lookup key = none ∧ default = value := by
  unfold Tells at tells
  cases found : kv.lookup key with
  | none =>
    rw [found] at tells
    exact .inr ⟨rfl, Option.some.inj tells⟩
  | some text =>
    rw [found] at tells
    exact .inl tells

private theorem mode_of_tells {mode : ManagerMode}
    (tells : kv.Tells "mode".toList (modeText .normal) (modeText mode)) : kv.mode = mode := by
  rcases tells.cases with found | ⟨missing, same⟩
  · simp only [KeyValues.mode, found]
    cases mode <;> decide
  · simp only [KeyValues.mode, missing]
    clear missing tells
    revert same
    cases mode <;> decide

theorem text_of_tells {key : String} {default value : List Char} (whole : cStr value = value)
    (tells : kv.Tells key.toList default value) : kv.text key default = value := by
  rcases tells.cases with found | ⟨missing, same⟩
  · simp only [KeyValues.text, found, whole]
  · simp only [KeyValues.text, missing, same]

theorem number_of_tells {α : Type} {key : String} {cast : ℤ → α} {encode : α → List Char}
    (decode : ∀ value, (stoi (encode value)).map cast = some value) {default value : α}
    (tells : kv.Tells key.toList (encode default) (encode value)) :
    kv.number key cast default = some value := by
  rcases tells.cases with found | ⟨missing, same⟩
  · simp only [KeyValues.number, found, decode]
  · simp only [KeyValues.number, missing]
    rw [← decode default, same, decode]

theorem flag_of_tells {key : String} {default value : Bool}
    (tells : kv.Tells key.toList (flagText default) (flagText value)) :
    kv.flag key default = value := by
  rcases tells.cases with found | ⟨missing, same⟩
  · simp only [KeyValues.flag, found]
    cases value <;> decide
  · simp only [KeyValues.flag, missing]
    clear missing tells
    revert same
    cases default <;> cases value <;> decide

end KeyValues

theorem cStr_of_printable {text : List Char} (printable : Char.ofNat 0 ∉ text) : cStr text = text :=
  List.takeWhile_eq_self_iff.mpr fun c member => by
    refine decide_eq_true ?_
    rintro rfl
    exact printable member

private theorem decode_port (port : UInt16) :
    (stoi (Nat.toDigits 10 port.toNat)).map UInt16.ofInt = some port := by
  have small := port.toNat_lt
  have same : ((port.toNat : ℤ) % 2 ^ 16).toNat = port.toNat := by omega
  rw [stoi_port, Option.map_some, UInt16.ofInt, same, UInt16.ofNat_toNat]

private theorem decode_ttl (ttl : Int32) : (stoi (intText ttl.toInt)).map Int32.ofInt = some ttl := by
  rw [stoi_intText ttl.le_toInt ttl.toInt_lt, Option.map_some, Int32.ofInt_toInt]

/-- A configuration file whose last word on every setting, behind the defaults, is that of a
configuration is read as this configuration. -/
theorem config_round_trip {lines : List Line} (ok : ∀ line ∈ lines, line.Ok) (ended : Bool)
    {cfg : ManagerConfig} (group : Char.ofNat 0 ∉ cfg.mcastCfg.groupIp)
    (bind : Char.ofNat 0 ∉ cfg.mcastCfg.bindIp)
    (tells : ∀ setting ∈ cfg.settings,
      lastValue setting.1 (defaults ++ lines.filterMap Line.setting) = some setting.2) :
    getManagerCfg (some (fileText (lines.map Line.text) ended)) cfg.id = some cfg := by
  have said {key default value : List Char} (listed : (key, value) ∈ cfg.settings)
      (usual : lastValue key defaults = some default) :
      (parseKvFile (some (fileText (lines.map Line.text) ended))).Tells key default value := by
    have last := tells _ listed
    rw [lastValue_append, usual] at last
    rw [KeyValues.Tells, lookup_parseKvFile ok, last]
  rw [getManagerCfg]
  generalize parseKvFile (some (fileText (lines.map Line.text) ended)) = kv at said ⊢
  have mode : kv.mode = cfg.mode :=
    KeyValues.mode_of_tells (said (by simp [ManagerConfig.settings]) (by decide))
  have group : kv.text "mcast_group_ip" UdpMcastConfig.default.groupIp = cfg.mcastCfg.groupIp :=
    KeyValues.text_of_tells (cStr_of_printable group)
      (said (by simp [ManagerConfig.settings]) (by decide))
  have port : kv.number "mcast_port" UInt16.ofInt UdpMcastConfig.default.port =
      some cfg.mcastCfg.port :=
    KeyValues.number_of_tells decode_port (said (by simp [ManagerConfig.settings]) (by decide))
  have bind : kv.text "mcast_bind_ip" UdpMcastConfig.default.bindIp = cfg.mcastCfg.bindIp :=
    KeyValues.text_of_tells (cStr_of_printable bind)
      (said (by simp [ManagerConfig.settings]) (by decide))
  have ttl : kv.number "mcast_ttl" Int32.ofInt UdpMcastConfig.default.ttl = some cfg.mcastCfg.ttl :=
    KeyValues.number_of_tells decode_ttl (said (by simp [ManagerConfig.settings]) (by decide))
  have loopback : kv.flag "mcast_loopback" UdpMcastConfig.default.loopback = cfg.mcastCfg.loopback :=
    KeyValues.flag_of_tells (said (by simp [ManagerConfig.settings]) (by decide))
  have reuse : kv.flag "mcast_reuse_addr" UdpMcastConfig.default.reuseAddr = cfg.mcastCfg.reuseAddr :=
    KeyValues.flag_of_tells (said (by simp [ManagerConfig.settings]) (by decide))
  simp only [mode, group, port, bind, ttl, loopback, reuse, Option.bind_some, Option.map_some]

end Eroil.Cfg
