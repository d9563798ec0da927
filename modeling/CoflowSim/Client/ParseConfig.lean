import CoflowSim.Client.TrafficControl
import CoflowSim.Master.ParseConfig

namespace CoflowSim
open Lib

/-- What the client's `parseConfig` finds in its document, once its checks have
passed. -/
structure ClientDocument where
  master_server_ip : List Byte
  master_server_port : CInt
  client_server_ip : List Byte
  client_server_port : CInt
  thread_num : CInt
  net_card_name : List Byte
  net_card_bandwidth_MBs : Rat

/-- The variables that the client's `parseConfig` sets. -/
structure ClientConfig where
  master_server_ip : List Byte
  master_server_port : CInt
  client_server_ip : List Byte
  client_server_port : CInt
  thread_num : CInt
  net_card_name : List Byte
  net_card_bandwidth_MBs : Rat
deriving DecidableEq

/-- The capacity of `net_card_name`. -/
def NET_CARD_NAME_BUFFER : Nat := 256

/-- `ss >> number; ss.clear();` for a `double`. -/
def readReal (old : Rat) (ss : List Byte) : Rat × List Byte :=
  let (number, rest) := (IStream.mk ss false).readDouble
  (number.getD old, rest.rest)

namespace ClientConfig

theorem eight_fits : (8 : Int) ∈ Set.Icc (-2147483648) 2147483647 := ⟨by decide, by decide⟩

def init : ClientConfig where
  master_server_ip := ascii "127.0.0.1"
  master_server_port := ⟨4003, by decide, by decide⟩
  client_server_ip := ascii "127.0.0.1"
  client_server_port := ⟨4003, by decide, by decide⟩
  thread_num := ⟨8, eight_fits⟩
  net_card_name := ascii "eth0"
  net_card_bandwidth_MBs := 100

/-- As in the master, one stringstream serves all fields. -/
def parseConfig (document : ClientDocument) : Option ClientConfig := do
  let old := init
  let (master_server_ip, ss) ← readString IP_BUFFER old.master_server_ip (cString document.master_server_ip)
  let (master_server_port, ss) := readNumber old.master_server_port (ss ++ showInt document.master_server_port.val)
  let (client_server_ip, ss) ← readString IP_BUFFER old.client_server_ip (ss ++ cString document.client_server_ip)
  let (client_server_port, ss) := readNumber old.client_server_port (ss ++ showInt document.client_server_port.val)
  let (thread_num, ss) := readNumber old.thread_num (ss ++ showInt document.thread_num.val)
  let (net_card_name, ss) ← readString NET_CARD_NAME_BUFFER old.net_card_name (ss ++ cString document.net_card_name)
  let (net_card_bandwidth_MBs, _) :=
    readReal old.net_card_bandwidth_MBs (ss ++ showDouble document.net_card_bandwidth_MBs)
  some {
    master_server_ip, master_server_port, client_server_ip, client_server_port, thread_num, net_card_name
    net_card_bandwidth_MBs }

/-- The variables are the fields of the document, and the root class has the
bandwidth. -/
structure Right (document : ClientDocument) (config : ClientConfig) : Prop where
  master_server_ip : config.master_server_ip = document.master_server_ip
  master_server_port : config.master_server_port = document.master_server_port
  client_server_ip : config.client_server_ip = document.client_server_ip
  client_server_port : config.client_server_port = document.client_server_port
  thread_num : config.thread_num = document.thread_num
  net_card_name : config.net_card_name = document.net_card_name
  net_card_bandwidth_MBs : config.net_card_bandwidth_MBs = document.net_card_bandwidth_MBs
  root : (TrafficControlManager.create config.net_card_bandwidth_MBs).tc.classes.find?
    TrafficControlManager.ROOT_CLASS = some document.net_card_bandwidth_MBs

end ClientConfig

/-- One word, to its last byte. -/
structure OneWord (text : List Byte) : Prop where
  nonempty : text ≠ []
  solid : Solid text
  clean : 0 ∉ text

namespace ClientDocument

/-- The strings of the document fit into the arrays, and there is a bandwidth. -/
structure Fits (document : ClientDocument) : Prop where
  master_server_ip : document.master_server_ip.length < IP_BUFFER
  client_server_ip : document.client_server_ip.length < IP_BUFFER
  net_card_name : document.net_card_name.length < NET_CARD_NAME_BUFFER
  net_card_bandwidth_MBs : 0 < document.net_card_bandwidth_MBs

/-- What the stringstream gives back as it was put in. -/
structure Plain (document : ClientDocument) : Prop where
  master_server_ip : OneWord document.master_server_ip
  client_server_ip : OneWord document.client_server_ip
  net_card_name : OneWord document.net_card_name
  net_card_bandwidth_MBs : sixDigits document.net_card_bandwidth_MBs = document.net_card_bandwidth_MBs

end ClientDocument

section Fields

variable {old text ss : List Byte} {size : Nat}

/-- A string that is one word is read as it stands, and leaves nothing. -/
theorem OneWord.read (word : OneWord text) (fits : text.length < size) (old : List Byte) :
    readString size old (cString text) = some (text, []) := by
  have some_byte : ¬ Blank text := fun blank => word.nonempty (word.solid.words.1.symm.trans blank.words.1)
  rw [cString_eq_self word.clean, readString_fits fits, wordOr_of_word some_byte, word.solid.words.1,
    word.solid.words.2]

/-- A variable with the string of its field has one word, as the old value has. -/
theorem oneWord_of_read (old_word : OneWord old) {rest : List Byte}
    (read : readString size old (cString text) = some (text, rest)) : OneWord text ∧ rest = [] := by
  obtain ⟨own, left⟩ := Prod.mk.inj (readString_some read)
  have solid : Solid text := own ▸ solid_wordOr old_word.solid (cString text)
  have clean : 0 ∉ text := by
    intro member
    rw [own] at member
    exact (mem_wordOr member).elim old_word.clean (zero_not_mem_cString text)
  refine ⟨⟨?_, solid, clean⟩, ?_⟩
  · rintro rfl
    exact old_word.nonempty own.symm
  · rw [left, cString_eq_self clean, solid.words.2]

theorem readNumber_own (old z : CInt) : readNumber old (showInt z.val) = (z, []) := by
  have read := readNumber_blank old blank_nil z
  rwa [List.nil_append] at read

theorem readReal_own (old : Rat) {q : Rat} (positive : 0 < q) : (readReal old (showDouble q)).1 = sixDigits q := by
  have read := readDouble_showDouble (List.forall_mem_nil (isSpace · = true)) positive EndsDouble.nil
  rw [List.nil_append, List.append_nil] at read
  rw [readReal, read]
  rfl

end Fields

namespace ClientConfig

variable {document : ClientDocument} {config : ClientConfig}

theorem root_class {bandwidth_MBs : Rat} (positive : 0 < bandwidth_MBs) :
    (TrafficControlManager.create bandwidth_MBs).tc.classes.find? TrafficControlManager.ROOT_CLASS =
      some (sixDigits bandwidth_MBs) :=
  congrArg some (TrafficControlManager.readRate_rateText positive)

/-- The extractions of `parseConfig`, one behind the other. -/
theorem parseConfig_some (parsed : parseConfig document = some config) :
    ∃ afterMaster masterPort afterClient clientPort threads afterName,
      readString IP_BUFFER init.master_server_ip (cString document.master_server_ip) =
        some (config.master_server_ip, afterMaster) ∧
      readNumber init.master_server_port (afterMaster ++ showInt document.master_server_port.val) = masterPort ∧
      readString IP_BUFFER init.client_server_ip (masterPort.2 ++ cString document.client_server_ip) =
        some (config.client_server_ip, afterClient) ∧
      readNumber init.client_server_port (afterClient ++ showInt document.client_server_port.val) = clientPort ∧
      readNumber init.thread_num (clientPort.2 ++ showInt document.thread_num.val) = threads ∧
      readString NET_CARD_NAME_BUFFER init.net_card_name (threads.2 ++ cString document.net_card_name) =
        some (config.net_card_name, afterName) ∧
      config.master_server_port = masterPort.1 ∧ config.client_server_port = clientPort.1 ∧
      config.thread_num = threads.1 ∧ config.net_card_bandwidth_MBs =
        (readReal init.net_card_bandwidth_MBs (afterName ++ showDouble document.net_card_bandwidth_MBs)).1 := by
  unfold parseConfig at parsed
  obtain ⟨⟨master_server_ip, afterMaster⟩, master, parsed⟩ := Option.bind_eq_some_iff.mp parsed
  dsimp only at parsed
  generalize isMasterPort : readNumber init.master_server_port
    (afterMaster ++ showInt document.master_server_port.val) = masterPort at parsed
  obtain ⟨master_server_port, ss⟩ := masterPort
  obtain ⟨⟨client_server_ip, afterClient⟩, client, parsed⟩ := Option.bind_eq_some_iff.mp parsed
  dsimp only at parsed
  generalize isClientPort : readNumber init.client_server_port
    (afterClient ++ showInt document.client_server_port.val) = clientPort at parsed
  obtain ⟨client_server_port, ss'⟩ := clientPort
  generalize isThreads : readNumber init.thread_num (ss' ++ showInt document.thread_num.val) = threads at parsed
  obtain ⟨thread_num, ss''⟩ := threads
  obtain ⟨⟨net_card_name, afterName⟩, name, parsed⟩ := Option.bind_eq_some_iff.mp parsed
  dsimp only at parsed
  generalize isBandwidth : readReal init.net_card_bandwidth_MBs
    (afterName ++ showDouble document.net_card_bandwidth_MBs) = bandwidth at parsed
  obtain ⟨net_card_bandwidth_MBs, last⟩ := bandwidth
  obtain rfl := Option.some.inj parsed
  exact ⟨afterMaster, (master_server_port, ss), afterClient, (client_server_port, ss'), (thread_num, ss''), afterName,
    master, isMasterPort, client, isClientPort, isThreads, name, rfl, rfl, rfl, congrArg Prod.fst isBandwidth.symm⟩

/-- Strings of one word are set as they stand there, and so are the numbers
between them. -/
theorem parseConfig_words (fits : document.Fits) (master : OneWord document.master_server_ip)
    (client : OneWord document.client_server_ip) (name : OneWord document.net_card_name) :
    parseConfig document = some { document with
      net_card_bandwidth_MBs := sixDigits document.net_card_bandwidth_MBs } := by
  have bandwidth := readReal_own init.net_card_bandwidth_MBs fits.net_card_bandwidth_MBs
  unfold parseConfig
  simp only [master.read fits.master_server_ip, client.read fits.client_server_ip, name.read fits.net_card_name,
    List.nil_append, readNumber_own, Option.bind_eq_bind, Option.bind_some, bandwidth]

theorem plain_of_right (fits : document.Fits) (parsed : parseConfig document = some config)
    (right : config.Right document) : document.Plain := by
  obtain ⟨afterMaster, masterPort, afterClient, clientPort, threads, afterName, master, isMasterPort, client,
    isClientPort, isThreads, name, -, -, -, bandwidth⟩ := parseConfig_some parsed
  rw [right.master_server_ip] at master
  obtain ⟨masterWord, rfl⟩ := oneWord_of_read ⟨by decide +kernel, by decide +kernel, by decide +kernel⟩ master
  rw [List.nil_append, readNumber_own] at isMasterPort
  rw [← isMasterPort, List.nil_append, right.client_server_ip] at client
  obtain ⟨clientWord, rfl⟩ := oneWord_of_read ⟨by decide +kernel, by decide +kernel, by decide +kernel⟩ client
  rw [List.nil_append, readNumber_own] at isClientPort
  rw [← isClientPort, List.nil_append, readNumber_own] at isThreads
  rw [← isThreads, List.nil_append, right.net_card_name] at name
  obtain ⟨nameWord, rfl⟩ := oneWord_of_read ⟨by decide +kernel, by decide +kernel, by decide +kernel⟩ name
  rw [List.nil_append, readReal_own _ fits.net_card_bandwidth_MBs, right.net_card_bandwidth_MBs] at bandwidth
  exact ⟨masterWord, clientWord, nameWord, bandwidth.symm⟩

/-- The variables of the client are the fields of its document, and its root
class has the bandwidth, if and only if the strings are words and six digits are
enough for the bandwidth. With more digits the bandwidth is rounded once: the
text of the command changes it no further. -/
theorem right_iff_plain (fits : document.Fits) :
    ((∃ config, parseConfig document = some config ∧ config.Right document) ↔ document.Plain) ∧
      (OneWord document.master_server_ip → OneWord document.client_server_ip → OneWord document.net_card_name →
        ∃ config, parseConfig document = some config ∧
          (TrafficControlManager.create config.net_card_bandwidth_MBs).tc.classes.find?
            TrafficControlManager.ROOT_CLASS = some (sixDigits document.net_card_bandwidth_MBs)) := by
  have positive := sixDigits_pos fits.net_card_bandwidth_MBs
  refine ⟨⟨fun ⟨_, parsed, right⟩ => plain_of_right fits parsed right, fun plain => ?_⟩, fun master client name => ?_⟩
  · have parsed := parseConfig_words fits plain.master_server_ip plain.client_server_ip plain.net_card_name
    refine ⟨_, parsed, rfl, rfl, rfl, rfl, rfl, rfl, plain.net_card_bandwidth_MBs, ?_⟩
    simp only [plain.net_card_bandwidth_MBs, root_class fits.net_card_bandwidth_MBs]
  · refine ⟨_, parseConfig_words fits master client name, (root_class positive).trans ?_⟩
    rw [sixDigits_sixDigits fits.net_card_bandwidth_MBs]

/-- The configuration that comes with the client. -/
def client_config : ClientDocument where
  master_server_ip := ascii "0.0.0.0"
  master_server_port := ⟨4003, by decide, by decide⟩
  client_server_ip := ascii "0.0.0.0"
  client_server_port := ⟨4003, by decide, by decide⟩
  thread_num := CInt.zero
  net_card_name := ascii "eth0"
  net_card_bandwidth_MBs := 10

theorem right_iff_plain_config : ∃ config, parseConfig client_config = some config ∧
    config.net_card_name = ascii "eth0" ∧ config.thread_num.val = 0 ∧
    (TrafficControlManager.create config.net_card_bandwidth_MBs).tc.classes.find? TrafficControlManager.ROOT_CLASS =
      some 10 := by
  have positive : (0 : Rat) < 10 := by norm_num
  have ip : OneWord (ascii "0.0.0.0") := ⟨by decide +kernel, by decide +kernel, by decide +kernel⟩
  have card : OneWord (ascii "eth0") := ⟨by decide +kernel, by decide +kernel, by decide +kernel⟩
  have digits : sixDigits 10 = 10 := (sixDigits_eq_self_iff positive).mpr ⟨10, 0, by norm_num, by norm_num⟩
  have fits : client_config.Fits := ⟨by decide +kernel, by decide +kernel, by decide +kernel, positive⟩
  obtain ⟨config, parsed, right⟩ := (right_iff_plain fits).1.mpr ⟨ip, ip, card, digits⟩
  exact ⟨config, parsed, right.net_card_name, congrArg Subtype.val right.thread_num, right.root⟩

-- the second word of an address is in front of the port
example : (parseConfig { client_config with master_server_ip := ascii "10.0.0.1 7" }).map
    (·.master_server_port.val) = some 74003 := by
  decide +kernel

end ClientConfig

end CoflowSim
