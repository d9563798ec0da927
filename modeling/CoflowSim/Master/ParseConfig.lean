import CoflowSim.Lib.Words
import CoflowSim.Common.SocketManage

namespace CoflowSim
open Lib

/-- What `parseConfig` finds in its document, once its checks have passed. -/
structure MasterDocument where
  server_ip : List Byte
  server_port : CInt
  broadcast_ip : List Byte
  broadcast_port : CInt
  FBfilePath : List Byte
  machine_define_path : List Byte
  thread_num : CInt

/-- The variables that `parseConfig` sets, the arrays with the strings in them. -/
structure MasterConfig where
  master_server_ip : List Byte
  master_server_port : CInt
  broadcastIP : List Byte
  broadcastPort : CInt
  FBfilePath : List Byte
  machine_define_path : List Byte
  thread_num : CInt
deriving DecidableEq

/-- The capacity of `master_server_ip` and `broadcastIP`. -/
def IP_BUFFER : Nat := 64

/-- The capacity of `FBfilePath` and `machine_define_path`. -/
def PATH_BUFFER : Nat := 1024

def slash : Byte := 47

def ascii (text : String) : List Byte := text.toList.map Char.toUInt8

def MasterConfig.init : MasterConfig where
  master_server_ip := ascii "127.0.0.1"
  master_server_port := ⟨4002, by decide, by decide⟩
  broadcastIP := ascii "255.255.255.255"
  broadcastPort := ⟨4001, by decide, by decide⟩
  FBfilePath := ascii "../res/FB2010-1Hr-150-0.txt"
  machine_define_path := ascii "../res/machine_define.json"
  thread_num := ⟨8, by decide, by decide⟩

/-- What `GetString` points to, for those that look for a NUL. -/
def cString (text : List Byte) : List Byte := text.takeWhile (· != 0)

/-- An array into which `ss >> array` reads: without a word it stays as it was. -/
def wordOr (old text : List Byte) : List Byte := if (firstWord text).isEmpty then old else firstWord text

/-- `ss >> array; ss.clear();` with the new string and what is left in the
stringstream. `none` is a word that runs out of the array. -/
def readString (size : Nat) (old ss : List Byte) : Option (List Byte × List Byte) :=
  let (word, rest) := (IStream.mk ss false).readToken
  if size ≤ word.length then none else some (if word.isEmpty then old else word, rest.rest)

/-- `ss >> number; ss.clear();` -/
def readNumber (old : CInt) (ss : List Byte) : CInt × List Byte :=
  let (number, rest) := (IStream.mk ss false).readInt
  (number.getD old, rest.rest)

/-- The loop down to the last slash, and the NUL behind it. -/
def directory (path : List Byte) : List Byte := (path.reverse.dropWhile (· != slash)).reverse

/-- `ss << configFilePath; ss >> array; ss.clear();`, the cut, and
`ss << array; ss << value; ss >> array; ss.clear();`. -/
def readPath (old configFilePath value ss : List Byte) : Option (List Byte × List Byte) := do
  let (file, ss) ← readString PATH_BUFFER old (ss ++ configFilePath)
  readString PATH_BUFFER (directory file) (ss ++ (directory file ++ value))

/-- The one stringstream of `parseConfig` keeps what an extraction leaves in it:
`ss.clear()` resets no more than its flags. -/
def parseConfig (configFilePath : List Byte) (document : MasterDocument) : Option MasterConfig := do
  let old := MasterConfig.init
  let (master_server_ip, ss) ← readString IP_BUFFER old.master_server_ip (cString document.server_ip)
  let (master_server_port, ss) := readNumber old.master_server_port (ss ++ showInt document.server_port.val)
  let (broadcastIP, ss) ← readString IP_BUFFER old.broadcastIP (ss ++ cString document.broadcast_ip)
  let (broadcastPort, ss) := readNumber old.broadcastPort (ss ++ showInt document.broadcast_port.val)
  let (FBfilePath, ss) ← readPath old.FBfilePath configFilePath (cString document.FBfilePath) ss
  let (machine_define_path, ss) ←
    readPath old.machine_define_path configFilePath (cString document.machine_define_path) ss
  let (thread_num, _) := readNumber old.thread_num (ss ++ showInt document.thread_num.val)
  some { master_server_ip, master_server_port, broadcastIP, broadcastPort, FBfilePath, machine_define_path, thread_num }

section Stages

variable {old ss text value : List Byte}

theorem readString_eq (size : Nat) (old ss : List Byte) : readString size old ss =
    if size ≤ (firstWord ss).length then none else some (wordOr old ss, afterWord ss) := by
  obtain ⟨first, later⟩ := readToken_eq ss
  rw [wordOr, ← first, ← later]
  rfl

theorem readString_some {size : Nat} {read : List Byte × List Byte} (found : readString size old ss = some read) :
    read = (wordOr old ss, afterWord ss) := by
  rw [readString_eq] at found
  split at found
  · cases found
  · exact (Option.some.inj found).symm

theorem readString_fits {size : Nat} (fits : ss.length < size) :
    readString size old ss = some (wordOr old ss, afterWord ss) := by
  have word := firstWord_length_le ss
  rw [readString_eq, if_neg (by omega)]

theorem readNumber_blank (old : CInt) (blank : Blank ss) (z : CInt) :
    readNumber old (ss ++ showInt z.val) = (z, []) := by
  rw [readNumber, readInt_blank blank z]
  rfl

theorem readPath_some {configFilePath : List Byte} {read : List Byte × List Byte}
    (found : readPath old configFilePath value ss = some read) :
    ∃ file text, file = wordOr old (ss ++ configFilePath) ∧
      text = afterWord (ss ++ configFilePath) ++ (directory file ++ value) ∧
      read = (wordOr (directory file) text, afterWord text) := by
  obtain ⟨⟨file, rest⟩, first, second⟩ := Option.bind_eq_some_iff.mp found
  cases readString_some first
  exact ⟨_, _, rfl, rfl, readString_some second⟩

theorem wordOr_of_word (some_byte : ¬ Blank text) (old : List Byte) : wordOr old text = firstWord text := by
  rw [wordOr, if_neg (by simpa using firstWord_ne_nil some_byte)]

theorem solid_wordOr (solid : Solid old) (text : List Byte) : Solid (wordOr old text) := by
  unfold wordOr
  split
  · exact solid
  · exact solid_firstWord text

theorem directory_split (path : List Byte) : ∃ name, path = directory path ++ name ∧ slash ∉ name ∧
    (directory path = [] ∨ ∃ front, directory path = front ++ [slash]) := by
  have halves := List.takeWhile_append_dropWhile (p := (· != slash)) (l := path.reverse)
  refine ⟨(path.reverse.takeWhile (· != slash)).reverse, ?_, fun member => ?_, ?_⟩
  · rw [directory, ← List.reverse_append, halves, List.reverse_reverse]
  · simpa using List.mem_takeWhile_imp (List.mem_reverse.mp member)
  · by_cases none : path.reverse.dropWhile (· != slash) = []
    · exact Or.inl (by rw [directory, none, List.reverse_nil])
    · have stops := List.head_dropWhile_not (· != slash) none
      obtain ⟨b, rest, same⟩ := List.exists_cons_of_ne_nil none
      simp only [same, List.head_cons, bne_eq_false_iff_eq] at stops
      exact Or.inr ⟨rest.reverse, by rw [directory, same, stops, List.reverse_cons]⟩

theorem directory_append {front name : List Byte} (ends : front = [] ∨ ∃ before, front = before ++ [slash])
    (clean : slash ∉ name) : directory (front ++ name) = front := by
  have passed : ∀ b ∈ name.reverse, (b != slash) = true := by
    intro b member
    simp only [bne_iff_ne, ne_eq]
    rintro rfl
    exact clean (List.mem_reverse.mp member)
  rw [directory, List.reverse_append, List.dropWhile_append_of_pos passed]
  rcases ends with rfl | ⟨before, rfl⟩
  · rfl
  · rw [List.reverse_append, List.reverse_singleton, List.singleton_append, List.dropWhile_cons_of_neg (by simp),
      List.reverse_cons, List.reverse_reverse]

/-- A directory without white space is that of the first word, and the path has
no slash behind that word. -/
theorem directory_of_solid {path : List Byte} (solid : Solid (directory path)) :
    directory (firstWord path) = directory path ∧ slash ∉ afterWord path := by
  obtain ⟨name, split, clean, ends⟩ := directory_split path
  by_cases none : directory path = []
  · rw [none, List.nil_append] at split
    have inside : slash ∉ firstWord path := fun member => clean (split ▸ firstWord_subset path member)
    refine ⟨?_, fun member => clean (split ▸ (afterWord_within path).subset member)⟩
    rw [none]
    exact directory_append (Or.inl rfl) inside
  · have some_byte : ¬ Blank (directory path) := fun blank => none (solid.words.1.symm.trans blank.words.1)
    obtain ⟨first, later⟩ := words_append_last some_byte solid.words.2 name
    rw [← split, solid.words.1] at first
    rw [← split] at later
    refine ⟨?_, fun member => clean ((List.dropWhile_suffix _).subset (later ▸ member))⟩
    rw [first]
    exact directory_append ends fun member => clean ((List.takeWhile_prefix _).subset member)

theorem cString_eq_self {text : List Byte} (clean : 0 ∉ text) : cString text = text := by
  refine List.takeWhile_eq_self_iff.mpr fun b member => ?_
  simp only [bne_iff_ne, ne_eq]
  rintro rfl
  exact clean member

theorem zero_not_mem_cString (text : List Byte) : 0 ∉ cString text := by
  intro member
  simpa using List.mem_takeWhile_imp member

/-- From an empty stringstream, a path that is one word and a value without
white space are put together. -/
theorem readPath_apart {path : List Byte} (some_word : ¬ Blank path) (one_word : Blank (afterWord path))
    (solid : Solid (directory path)) (whole : Solid value) (fits : path.length < PATH_BUFFER)
    (room : (directory path ++ value).length < PATH_BUFFER) (old : List Byte) :
    readPath old path value [] = some (directory path ++ value, []) := by
  have all : Solid (directory path ++ value) := List.forall_mem_append.mpr ⟨solid, whole⟩
  have word : firstWord (afterWord path ++ (directory path ++ value)) = directory path ++ value := by
    rw [(words_append_blank one_word _).1, all.words.1]
  have left : afterWord (afterWord path ++ (directory path ++ value)) = [] := by
    rw [(words_append_blank one_word _).2, all.words.2]
  unfold readPath
  rw [List.nil_append, readString_fits fits, wordOr_of_word some_word]
  simp only [Option.bind_eq_bind, Option.bind_some]
  rw [(directory_of_solid solid).1, readString_eq, word, left, if_neg (by omega), wordOr, word]
  split
  · rename_i empty
    obtain ⟨none, -⟩ := List.append_eq_nil_iff.mp (List.isEmpty_iff.mp empty)
    rw [List.isEmpty_iff.mp empty, none]
  · rfl

theorem mem_wordOr {b : Byte} (member : b ∈ wordOr old text) : b ∈ old ∨ b ∈ text := by
  unfold wordOr at member
  split at member
  · exact Or.inl member
  · exact Or.inr (firstWord_subset text member)

theorem directory_within (path : List Byte) : directory path <+: path := by
  obtain ⟨name, split, -⟩ := directory_split path
  exact ⟨name, split.symm⟩

theorem directory_eq_nil {path : List Byte} (clean : slash ∉ path) : directory path = [] :=
  directory_append (Or.inl rfl) clean

theorem no_slash {path : List Byte} (clean : slash ∉ directory path) : directory path = [] ∧ slash ∉ path := by
  obtain ⟨name, split, clean', ends⟩ := directory_split path
  have none : directory path = [] := by
    rcases ends with none | ⟨front, ends⟩
    · exact none
    · exact absurd (by simp [ends]) clean
  rw [none, List.nil_append] at split
  exact ⟨none, split ▸ clean'⟩

/-- Whatever is read as the directory with the value behind it is a word. -/
theorem readPath_own {path rest : List Byte} (solid : Solid old) (cleanOld : 0 ∉ old) (clean : 0 ∉ ss ++ path)
    (found : readPath old path (cString value) ss = some (directory path ++ value, rest)) :
    Solid (directory path) ∧ Solid value ∧ 0 ∉ value := by
  obtain ⟨file, text, isFile, isText, read⟩ := readPath_some found
  obtain ⟨own, -⟩ := Prod.mk.inj read
  have solidFile : Solid file := isFile ▸ solid_wordOr solid (ss ++ path)
  have solidOwn : Solid (directory path ++ value) :=
    own ▸ solid_wordOr (fun b member => solidFile b ((directory_within file).subset member)) text
  have cleanFile : 0 ∉ file := fun member => (mem_wordOr (isFile ▸ member)).elim cleanOld clean
  have cleanText : 0 ∉ text := by
    rw [isText, List.mem_append, List.mem_append]
    rintro (inPath | inFile | inValue)
    · exact clean ((afterWord_within _).subset inPath)
    · exact cleanFile ((directory_within file).subset inFile)
    · exact zero_not_mem_cString value inValue
  refine ⟨fun b member => solidOwn b (List.mem_append_left _ member),
    fun b member => solidOwn b (List.mem_append_right _ member), fun member => ?_⟩
  rcases mem_wordOr (own ▸ List.mem_append_right _ member) with inFile | inText
  · exact cleanFile ((directory_within file).subset inFile)
  · exact cleanText inText

/-- A path without a word would leave the old directory in front of the value. -/
theorem readPath_word {path rest : List Byte} (solid : Solid old) (some_directory : directory old ≠ [])
    (whole : Solid value) (found : readPath old path value [] = some (directory path ++ value, rest)) :
    ¬ Blank path := by
  intro blank
  obtain ⟨file, text, isFile, isText, read⟩ := readPath_some found
  obtain ⟨own, -⟩ := Prod.mk.inj read
  have unread : wordOr old path = old := by rw [wordOr, blank.words.1]; rfl
  have none : directory path = [] := directory_eq_nil fun member => absurd (blank slash member) (by decide)
  rw [List.nil_append, unread] at isFile
  rw [List.nil_append, blank.words.2, List.nil_append, isFile] at isText
  have solidText : Solid text := by
    rw [isText]
    exact List.forall_mem_append.mpr ⟨fun b member => solid b ((directory_within old).subset member), whole⟩
  have some_byte : ¬ Blank text := by
    intro all
    have empty := solidText.words.1.symm.trans all.words.1
    exact some_directory (List.append_eq_nil_iff.mp (isText ▸ empty)).1
  rw [none, List.nil_append, wordOr_of_word some_byte, solidText.words.1, isText] at own
  have longer := congrArg List.length own
  rw [List.length_append] at longer
  exact some_directory (List.length_eq_zero_iff.mp (by omega))

/-- With a second word before it, the value is left in the stringstream. -/
theorem readPath_leaves {path rest : List Byte} (some_word : ¬ Blank (afterWord (ss ++ path)))
    (found : readPath old path value ss = some (directory (firstWord (ss ++ path)) ++ value, rest)) :
    directory (firstWord (ss ++ path)) ++ value = firstWord (afterWord (ss ++ path)) ∧ ¬ Blank rest ∧
      rest <:+ afterWord (ss ++ path) ++ (directory (firstWord (ss ++ path)) ++ value) := by
  obtain ⟨file, text, isFile, isText, read⟩ := readPath_some found
  obtain ⟨own, left⟩ := Prod.mk.inj read
  have word : ¬ Blank (ss ++ path) := fun blank => some_word (by rw [blank.words.2]; simp [Blank])
  rw [wordOr_of_word word] at isFile
  subst isFile
  have some_byte : ¬ Blank text := fun blank => some_word fun b member => blank b (isText ▸ List.mem_append_left _ member)
  rw [wordOr_of_word some_byte, isText] at own
  obtain ⟨same, later⟩ := word_in_front some_word own.symm
  rw [isText] at left
  exact ⟨same, left ▸ later, left ▸ afterWord_within _⟩

end Stages

/-- The path, which is a C string, and the strings of the document fit into the
arrays. -/
structure Fits (configFilePath : List Byte) (document : MasterDocument) : Prop where
  server_ip : document.server_ip.length < IP_BUFFER
  broadcast_ip : document.broadcast_ip.length < IP_BUFFER
  path : configFilePath.length < PATH_BUFFER ∧ 0 ∉ configFilePath
  FBfilePath : (directory configFilePath ++ document.FBfilePath).length < PATH_BUFFER
  machine_define_path : (directory configFilePath ++ document.machine_define_path).length < PATH_BUFFER

/-- No extraction leaves anything but white space for the next. -/
structure Apart (configFilePath : List Byte) (document : MasterDocument) : Prop where
  server_ip : Blank (afterWord (cString document.server_ip))
  broadcast_ip : Blank (afterWord (cString document.broadcast_ip))
  path : ¬ Blank configFilePath ∧ Blank (afterWord configFilePath)
  directory : Solid (directory configFilePath)
  FBfilePath : Solid document.FBfilePath ∧ 0 ∉ document.FBfilePath
  machine_define_path : Solid document.machine_define_path ∧ 0 ∉ document.machine_define_path

/-- The paths are the document's own in the directory of `configFilePath`, and
the numbers are the document's. -/
structure MasterConfig.Right (configFilePath : List Byte) (document : MasterDocument) (config : MasterConfig) : Prop where
  FBfilePath : config.FBfilePath = directory configFilePath ++ document.FBfilePath
  machine_define_path : config.machine_define_path = directory configFilePath ++ document.machine_define_path
  master_server_port : config.master_server_port = document.server_port
  broadcastPort : config.broadcastPort = document.broadcast_port
  thread_num : config.thread_num = document.thread_num

namespace MasterDocument

/-- The variables, each from its own text. -/
def own (configFilePath : List Byte) (document : MasterDocument) : MasterConfig where
  master_server_ip := wordOr MasterConfig.init.master_server_ip (cString document.server_ip)
  master_server_port := document.server_port
  broadcastIP := wordOr MasterConfig.init.broadcastIP (cString document.broadcast_ip)
  broadcastPort := document.broadcast_port
  FBfilePath := directory configFilePath ++ document.FBfilePath
  machine_define_path := directory configFilePath ++ document.machine_define_path
  thread_num := document.thread_num

def withNumbers (document : MasterDocument) (server_port broadcast_port thread_num : CInt) : MasterDocument :=
  { document with server_port, broadcast_port, thread_num }

end MasterDocument

section Parse

variable {path : List Byte} {document : MasterDocument} {config : MasterConfig}

theorem cString_length_le (text : List Byte) : (cString text).length ≤ text.length :=
  (List.takeWhile_prefix _).length_le

/-- Without leftovers each variable gets what is its own. -/
theorem parseConfig_own (fits : Fits path document) (apart : Apart path document) :
    parseConfig path document = some (document.own path) := by
  obtain ⟨some_word, one_word⟩ := apart.path
  have server := (cString_length_le document.server_ip).trans_lt fits.server_ip
  have broadcast := (cString_length_le document.broadcast_ip).trans_lt fits.broadcast_ip
  have trace := readPath_apart some_word one_word apart.directory apart.FBfilePath.1 fits.path.1 fits.FBfilePath
  have machines :=
    readPath_apart some_word one_word apart.directory apart.machine_define_path.1 fits.path.1 fits.machine_define_path
  unfold parseConfig
  simp only [readString_fits server, readNumber_blank _ apart.server_ip, List.nil_append, readString_fits broadcast,
    readNumber_blank _ apart.broadcast_ip, cString_eq_self apart.FBfilePath.2, trace,
    cString_eq_self apart.machine_define_path.2, machines, Option.bind_eq_bind, Option.bind_some]
  have number := readNumber_blank MasterConfig.init.thread_num blank_nil document.thread_num
  rw [List.nil_append] at number
  rw [number]
  rfl

/-- The extractions of `parseConfig`, one behind the other. -/
theorem parseConfig_some (parsed : parseConfig path document = some config) :
    ∃ afterServer afterBroadcast afterTrace afterMachines,
      afterServer = readNumber MasterConfig.init.master_server_port
        (afterWord (cString document.server_ip) ++ showInt document.server_port.val) ∧
      afterBroadcast = readNumber MasterConfig.init.broadcastPort
        (afterWord (afterServer.2 ++ cString document.broadcast_ip) ++ showInt document.broadcast_port.val) ∧
      readPath MasterConfig.init.FBfilePath path (cString document.FBfilePath) afterBroadcast.2 =
        some (config.FBfilePath, afterTrace) ∧
      readPath MasterConfig.init.machine_define_path path (cString document.machine_define_path) afterTrace =
        some (config.machine_define_path, afterMachines) ∧
      config.master_server_port = afterServer.1 ∧ config.broadcastPort = afterBroadcast.1 ∧
      config.thread_num =
        (readNumber MasterConfig.init.thread_num (afterMachines ++ showInt document.thread_num.val)).1 := by
  unfold parseConfig at parsed
  obtain ⟨⟨server_ip, afterIp⟩, server, parsed⟩ := Option.bind_eq_some_iff.mp parsed
  cases readString_some server
  -- each number stays one value, so that the rest of the stream is named and not computed
  dsimp only at parsed
  generalize readNumber MasterConfig.init.master_server_port
    (afterWord (cString document.server_ip) ++ showInt document.server_port.val) = afterServer at parsed ⊢
  obtain ⟨server_port, ss⟩ := afterServer
  obtain ⟨⟨broadcast_ip, afterIp'⟩, broadcast, parsed⟩ := Option.bind_eq_some_iff.mp parsed
  cases readString_some broadcast
  dsimp only at parsed
  generalize isBroadcast : readNumber MasterConfig.init.broadcastPort
    (afterWord (ss ++ cString document.broadcast_ip) ++ showInt document.broadcast_port.val) = afterBroadcast at parsed
  obtain ⟨broadcast_port, ss'⟩ := afterBroadcast
  obtain ⟨⟨trace, afterTrace⟩, readTrace, parsed⟩ := Option.bind_eq_some_iff.mp parsed
  obtain ⟨⟨machines, afterMachines⟩, readMachines, parsed⟩ := Option.bind_eq_some_iff.mp parsed
  dsimp only at parsed
  generalize isThreads : readNumber MasterConfig.init.thread_num
    (afterMachines ++ showInt document.thread_num.val) = threads at parsed
  obtain ⟨thread_num, last⟩ := threads
  obtain rfl := Option.some.inj parsed
  exact ⟨(server_port, ss), (broadcast_port, ss'), afterTrace, afterMachines, rfl, isBroadcast.symm, readTrace,
    readMachines, rfl, rfl, congrArg Prod.fst isThreads.symm⟩

theorem init_FBfilePath : Solid MasterConfig.init.FBfilePath ∧ 0 ∉ MasterConfig.init.FBfilePath ∧
    directory MasterConfig.init.FBfilePath ≠ [] := by
  decide +kernel

theorem init_machine_define_path :
    Solid MasterConfig.init.machine_define_path ∧ 0 ∉ MasterConfig.init.machine_define_path := by
  decide +kernel

/-- If all numbers get through, no text leaves anything for them, and the two
paths are read with nothing in front of them. -/
theorem readPaths_of_right (right : ∀ server_port broadcast_port thread_num, ∃ config,
      parseConfig path (document.withNumbers server_port broadcast_port thread_num) = some config ∧
        config.Right path (document.withNumbers server_port broadcast_port thread_num)) :
    Blank (afterWord (cString document.server_ip)) ∧ Blank (afterWord (cString document.broadcast_ip)) ∧
      ∃ afterTrace afterMachines,
        readPath MasterConfig.init.FBfilePath path (cString document.FBfilePath) [] =
          some (directory path ++ document.FBfilePath, afterTrace) ∧
        readPath MasterConfig.init.machine_define_path path (cString document.machine_define_path) afterTrace =
          some (directory path ++ document.machine_define_path, afterMachines) ∧ Blank afterMachines := by
  have server : Blank (afterWord (cString document.server_ip)) := by
    refine blank_of_reads MasterConfig.init.master_server_port fun z => ?_
    obtain ⟨config, parsed, own⟩ := right z CInt.zero CInt.zero
    obtain ⟨-, -, -, -, rfl, -, -, -, same, -⟩ := parseConfig_some parsed
    exact same.symm.trans own.master_server_port
  have broadcast : Blank (afterWord (cString document.broadcast_ip)) := by
    refine blank_of_reads MasterConfig.init.broadcastPort fun z => ?_
    obtain ⟨config, parsed, own⟩ := right CInt.zero z CInt.zero
    obtain ⟨-, -, -, -, rfl, rfl, -, -, -, same, -⟩ := parseConfig_some parsed
    simp only [MasterDocument.withNumbers, readNumber_blank _ server, List.nil_append] at same
    exact same.symm.trans own.broadcastPort
  have paths (z : CInt) : ∃ afterTrace afterMachines,
      readPath MasterConfig.init.FBfilePath path (cString document.FBfilePath) [] =
        some (directory path ++ document.FBfilePath, afterTrace) ∧
      readPath MasterConfig.init.machine_define_path path (cString document.machine_define_path) afterTrace =
        some (directory path ++ document.machine_define_path, afterMachines) ∧
      (readNumber MasterConfig.init.thread_num (afterMachines ++ showInt z.val)).1 = z := by
    obtain ⟨config, parsed, own⟩ := right CInt.zero CInt.zero z
    obtain ⟨-, -, afterTrace, afterMachines, rfl, rfl, trace, machines, -, -, number⟩ := parseConfig_some parsed
    simp only [MasterDocument.withNumbers, readNumber_blank _ server, List.nil_append, readNumber_blank _ broadcast,
      own.FBfilePath, own.machine_define_path] at trace machines
    exact ⟨afterTrace, afterMachines, trace, machines, number.symm.trans own.thread_num⟩
  obtain ⟨afterTrace, afterMachines, trace, machines, -⟩ := paths CInt.zero
  refine ⟨server, broadcast, afterTrace, afterMachines, trace, machines,
    blank_of_reads MasterConfig.init.thread_num fun z => ?_⟩
  obtain ⟨_, _, trace', machines', number⟩ := paths z
  cases trace.symm.trans trace'
  cases machines.symm.trans machines'
  exact number

/-- A path of several words leaves something for the number behind the two paths. -/
theorem one_word_of_read {trace machines afterTrace afterMachines : List Byte} (clean : 0 ∉ path)
    (solid : Solid (directory path))
    (readTrace : readPath MasterConfig.init.FBfilePath path trace [] = some (directory path ++ trace, afterTrace))
    (readMachines : readPath MasterConfig.init.machine_define_path path (cString machines) afterTrace =
      some (directory path ++ machines, afterMachines)) (read : Blank afterMachines) : Blank (afterWord path) := by
  by_contra later
  obtain ⟨first, outside⟩ := directory_of_solid solid
  obtain ⟨same, -, within⟩ := readPath_leaves (show ¬ Blank (afterWord ([] ++ path)) from later)
    (by rwa [List.nil_append, first])
  rw [List.nil_append, first] at same within
  have word : directory path ++ trace ⊆ afterWord path := same ▸ firstWord_subset _
  obtain ⟨none, unslashed⟩ := no_slash fun member => outside (word (List.mem_append_left trace member))
  have left : afterTrace ⊆ path := by
    intro b member
    rcases List.mem_append.mp (within.subset member) with inPath | inWord
    · exact (afterWord_within path).subset inPath
    · exact (afterWord_within path).subset (word inWord)
  have all : afterTrace ++ path ⊆ path := List.append_subset.mpr ⟨left, List.Subset.refl path⟩
  obtain ⟨old, cleanOld⟩ := init_machine_define_path
  obtain ⟨-, -, whole⟩ := readPath_own old cleanOld (fun member => clean (all member)) readMachines
  have behind : ¬ Blank (afterWord (afterTrace ++ path)) :=
    fun blank => later fun b member => blank b ((afterWord_suffix afterTrace path).subset member)
  have unslashed' : directory (firstWord (afterTrace ++ path)) = [] :=
    directory_eq_nil fun member => unslashed (all (firstWord_subset _ member))
  rw [cString_eq_self whole, none, ← unslashed'] at readMachines
  exact (readPath_leaves behind readMachines).2.1 read

theorem apart_of_right (clean : 0 ∉ path) (right : ∀ server_port broadcast_port thread_num, ∃ config,
      parseConfig path (document.withNumbers server_port broadcast_port thread_num) = some config ∧
        config.Right path (document.withNumbers server_port broadcast_port thread_num)) : Apart path document := by
  obtain ⟨server, broadcast, afterTrace, afterMachines, readTrace, readMachines, read⟩ := readPaths_of_right right
  obtain ⟨old, cleanOld, some_directory⟩ := init_FBfilePath
  obtain ⟨solid, trace⟩ := readPath_own old cleanOld clean readTrace
  rw [cString_eq_self trace.2] at readTrace
  have some_word := readPath_word old some_directory trace.1 readTrace
  have one_word := one_word_of_read clean solid readTrace readMachines read
  -- with nothing left behind the first path, the second is read as the first was
  have whole : Solid (directory path ++ document.FBfilePath) := List.forall_mem_append.mpr ⟨solid, trace.1⟩
  obtain ⟨file, text, isFile, isText, final⟩ := readPath_some readTrace
  have none : afterTrace = [] := by
    rw [List.nil_append, wordOr_of_word some_word] at isFile
    rw [isFile, (directory_of_solid solid).1, List.nil_append] at isText
    rw [(Prod.mk.inj final).2, isText, (words_append_blank one_word _).2, whole.words.2]
  rw [none] at readMachines
  obtain ⟨-, machines⟩ := readPath_own init_machine_define_path.1 init_machine_define_path.2 clean readMachines
  exact ⟨server, broadcast, ⟨some_word, one_word⟩, solid, trace, machines⟩

/-- With a path and the strings of a document, the paths and all numbers are set
as they stand there if and only if no extraction leaves anything but white space
behind. Each variable then depends on no other field. -/
theorem fields_kept_apart_iff (fits : Fits path document) :
    ((∀ server_port broadcast_port thread_num, ∃ config,
      parseConfig path (document.withNumbers server_port broadcast_port thread_num) = some config ∧
        config.Right path (document.withNumbers server_port broadcast_port thread_num)) ↔ Apart path document) ∧
    ∀ document', Fits path document' → Apart path document → Apart path document' → ∃ config config',
      parseConfig path document = some config ∧ parseConfig path document' = some config' ∧
      (document.server_ip = document'.server_ip → config.master_server_ip = config'.master_server_ip) ∧
      (document.server_port = document'.server_port → config.master_server_port = config'.master_server_port) ∧
      (document.broadcast_ip = document'.broadcast_ip → config.broadcastIP = config'.broadcastIP) ∧
      (document.broadcast_port = document'.broadcast_port → config.broadcastPort = config'.broadcastPort) ∧
      (document.FBfilePath = document'.FBfilePath → config.FBfilePath = config'.FBfilePath) ∧
      (document.machine_define_path = document'.machine_define_path →
        config.machine_define_path = config'.machine_define_path) ∧
      (document.thread_num = document'.thread_num → config.thread_num = config'.thread_num) := by
  refine ⟨⟨apart_of_right fits.path.2, fun apart server_port broadcast_port thread_num => ?_⟩,
    fun document' fits' apart apart' => ?_⟩
  · have parsed : parseConfig path (document.withNumbers server_port broadcast_port thread_num) = some _ :=
      parseConfig_own { fits with } { apart with }
    exact ⟨_, parsed, rfl, rfl, rfl, rfl, rfl⟩
  · refine ⟨_, _, parseConfig_own fits apart, parseConfig_own fits' apart', ?_, id, ?_, id, ?_, ?_, id⟩
    · exact congrArg fun text => wordOr MasterConfig.init.master_server_ip (cString text)
    · exact congrArg fun text => wordOr MasterConfig.init.broadcastIP (cString text)
    · exact congrArg fun text => directory path ++ text
    · exact congrArg fun text => directory path ++ text

end Parse

/-- The configuration that comes with the master. -/
def master_config : MasterDocument where
  server_ip := ascii "127.0.0.1"
  server_port := ⟨4002, by decide, by decide⟩
  broadcast_ip := ascii "255.255.255.255"
  broadcast_port := ⟨4001, by decide, by decide⟩
  FBfilePath := ascii "../res/test.txt"
  machine_define_path := ascii "./machine_define.json"
  thread_num := ⟨8, by decide, by decide⟩

theorem fields_kept_apart_iff_config : ∃ config, parseConfig (ascii "config/master.json") master_config = some config ∧
    config.FBfilePath = ascii "config/../res/test.txt" ∧ config.thread_num.val = 8 := by
  have fits : Fits (ascii "config/master.json") master_config :=
    ⟨by decide +kernel, by decide +kernel, by decide +kernel, by decide +kernel, by decide +kernel⟩
  have apart : Apart (ascii "config/master.json") master_config :=
    ⟨by decide +kernel, by decide +kernel, by decide +kernel, by decide +kernel, by decide +kernel,
      by decide +kernel⟩
  obtain ⟨config, parsed, right⟩ := (fields_kept_apart_iff fits).1.mpr apart master_config.server_port
    master_config.broadcast_port master_config.thread_num
  exact ⟨config, parsed, right.FBfilePath.trans (by decide +kernel), congrArg Subtype.val right.thread_num⟩

-- the second word of an address is in front of the port
example : (parseConfig (ascii "m.json") { master_config with server_ip := ascii "10.0.0.1 x" }).map
    (·.master_server_port.val) = some 0 := by
  decide +kernel

/-- The directory of the path has a blank in its name. -/
theorem blank_in_directory : ¬ ∀ (path : List Byte) (document : MasterDocument), Fits path document → ∃ config,
    parseConfig path document = some config ∧ config.Right path document := by
  intro always
  have parsed : parseConfig (ascii "/my config/master.json") master_config = some { MasterConfig.init with
      FBfilePath := ascii "config/master.json/../res/test.txt"
      machine_define_path := ascii "config/master.json/./machine_define.json" } := by
    decide +kernel
  obtain ⟨config, same, right⟩ := always (ascii "/my config/master.json") master_config
    ⟨by decide +kernel, by decide +kernel, by decide +kernel, by decide +kernel, by decide +kernel⟩
  cases parsed.symm.trans same
  exact absurd right.FBfilePath (by decide +kernel)

end CoflowSim
