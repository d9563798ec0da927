import CoflowSim.Common.SocketManage
import CoflowSim.Lib.DoubleText
import CoflowSim.Lib.OrderedMap

namespace CoflowSim
open Lib

/-- A u32 filter: packets with this source port go to the class `1:flowid`. -/
structure TcFilter where
  prio : Nat
  sport : Nat
  flowid : Nat
deriving DecidableEq

/-- The traffic control of a network card: the default class of its qdisc, the
rates of the classes `1:minor` in Mbit, and the filters in the order in which
they are tried. -/
structure Tc where
  defcls : Nat
  classes : OrderedMap Nat Rat
  filters : List TcFilter

inductive TcCommand
  | qdiscAdd (default : Nat)
  | classReplace (classid : Nat) (rate : List Byte)
  | filterDelete (prio : Nat)
  | filterReplace (prio sport classid : Nat)

/-- `"Mbit"` -/
def megabit : List Byte := [77, 98, 105, 116]

/-- `%gMbit` -/
def rateText (bandwidth : Rat) : List Byte := showDouble bandwidth ++ megabit

/-- The number at the front of a rate. -/
def readRate (rate : List Byte) : Rat := ((IStream.mk rate false).readDouble.1).getD 0

namespace Tc

/-- A card without a qdisc. -/
def bare : Tc := ⟨0, .empty, []⟩

/-- What a command does that succeeds. -/
def execute (tc : Tc) : TcCommand → Tc
  | .qdiscAdd default => { tc with defcls := default }
  | .classReplace classid rate => { tc with classes := tc.classes.insert classid (readRate rate) }
  | .filterDelete prio => { tc with filters := tc.filters.filter (·.prio != prio) }
  -- behind the filters of the same priority
  | .filterReplace prio sport classid => { tc with
      filters := tc.filters.takeWhile (·.prio ≤ prio) ++
        ⟨prio, sport, classid⟩ :: tc.filters.dropWhile (·.prio ≤ prio) }

/-- The filters for a source port. -/
def matching (tc : Tc) (port : Nat) : List TcFilter := tc.filters.filter (·.sport == port)

/-- The minor number of the class that a packet goes to: that of the first
filter that matches, if there is such a class. -/
def classify (tc : Tc) (port : Nat) : Nat :=
  match tc.filters.find? (·.sport == port) with
  | some f => if (tc.classes.find? f.flowid).isSome then f.flowid else tc.defcls
  | none => tc.defcls

end Tc

structure TrafficControlManager where
  remain_bandwidth_MBs : Rat
  tc : Tc

namespace TrafficControlManager

/-- The commands are those that the source prints, for the one network card. -/
def execShellCommmand (m : TrafficControlManager) (command : TcCommand) : Bool × TrafficControlManager :=
  (true, { m with tc := m.tc.execute command })

def addTcClass (m : TrafficControlManager) (class_id : Nat) (bandwidth : Rat) : Bool × TrafficControlManager :=
  m.execShellCommmand (.classReplace class_id (rateText bandwidth))

def addTcFilter (m : TrafficControlManager) (ip_port flow_classid : Nat) : Bool × TrafficControlManager :=
  m.execShellCommmand (.filterReplace ip_port ip_port flow_classid)

def deleteTcFilter (m : TrafficControlManager) (ip_port : Nat) : Bool × TrafficControlManager :=
  m.execShellCommmand (.filterDelete ip_port)

/-- The minor number of `root_class_id`. -/
def ROOT_CLASS : Nat := 1

/-- The class of the packets that match no filter. -/
def DEFAULT_CLASS : Nat := 2

def initTC (m : TrafficControlManager) : TrafficControlManager :=
  let (_, m) := m.execShellCommmand (.qdiscAdd DEFAULT_CLASS)
  let (_, m) := m.execShellCommmand (.classReplace ROOT_CLASS (rateText m.remain_bandwidth_MBs))
  (m.addTcClass DEFAULT_CLASS 1).2

/-- The constructor. -/
def create (bandwidth_MBs : Rat) : TrafficControlManager := initTC ⟨bandwidth_MBs, .bare⟩

def setIpPortBandwidth (m : TrafficControlManager) (ip_port : Nat) (bandwidth : Rat) :
    Bool × TrafficControlManager :=
  -- the warning says that the port is set as the default class
  if bandwidth ≤ 0 then (false, m)
  else
    let (_, m) := m.addTcClass ip_port bandwidth
    let (_, m) := m.deleteTcFilter ip_port
    let (_, m) := m.addTcFilter ip_port ip_port
    (true, m)

end TrafficControlManager

/-- A call of `setIpPortBandwidth`. -/
structure BandwidthCall where
  ip_port : Nat
  bandwidth : Rat
  low : 1001 ≤ ip_port
  high : ip_port ≤ 65535

/-- What the last of some calls for a port asks for. -/
def lastOf (calls : List BandwidthCall) (test : BandwidthCall → Bool) (port : Nat) : Option Rat :=
  ((calls.filter fun c => c.ip_port == port && test c).getLast?).map BandwidthCall.bandwidth

def lastBandwidth (calls : List BandwidthCall) (port : Nat) : Option Rat := lastOf calls (fun _ => true) port

/-- The last call for a port that sets its class. -/
def lastPositive (calls : List BandwidthCall) (port : Nat) : Option Rat :=
  lastOf calls (fun c => decide (0 < c.bandwidth)) port

theorem lastOf_concat (calls : List BandwidthCall) (test : BandwidthCall → Bool) (c : BandwidthCall) (port : Nat) :
    lastOf (calls ++ [c]) test port =
      if c.ip_port = port ∧ test c = true then some c.bandwidth else lastOf calls test port := by
  unfold lastOf
  rw [List.filter_append]
  by_cases same : c.ip_port = port ∧ test c = true
  · simp [same]
  · have other : [c].filter (fun c => c.ip_port == port && test c) = [] := by
      simpa using fun here => (Bool.not_eq_true _).mp fun holds => same ⟨here, holds⟩
    rw [other, List.append_nil, if_neg same]

theorem lastPositive_of_last {calls : List BandwidthCall} {port : Nat} {b : Rat}
    (last : lastBandwidth calls port = some b) (positive : 0 < b) : lastPositive calls port = some b := by
  induction calls using List.reverseRecOn with
  | nil => cases last
  | append_singleton calls c ih =>
    rw [lastBandwidth, lastOf_concat] at last
    rw [lastPositive, lastOf_concat]
    by_cases here : c.ip_port = port
    · rw [if_pos ⟨here, rfl⟩] at last
      cases last
      rw [if_pos ⟨here, decide_eq_true positive⟩]
    · rw [if_neg fun both => here both.1] at last ⊢
      exact ih last

theorem lastPositive_eq_none_iff {calls : List BandwidthCall} {port : Nat} :
    lastPositive calls port = none ↔ ∀ c ∈ calls, c.ip_port = port → c.bandwidth ≤ 0 := by
  rw [lastPositive, lastOf, Option.map_eq_none_iff, List.getLast?_eq_none_iff, List.filter_eq_nil_iff]
  simp

/-- A port that has had a call is none of the numbers below 1001. -/
theorem low_of_last {calls : List BandwidthCall} {port : Nat} {b : Rat} (last : lastBandwidth calls port = some b) :
    1001 ≤ port := by
  obtain ⟨c, found, -⟩ := Option.map_eq_some_iff.mp last
  obtain ⟨-, here⟩ := List.mem_filter.mp (List.mem_of_getLast? found)
  have same : c.ip_port = port := by simpa using here
  exact same ▸ c.low

namespace Tc

variable {tc : Tc} {port : Nat}

/-- Each filter is filed under the port that it matches. -/
def Filed (tc : Tc) : Prop := ∀ f ∈ tc.filters, f.prio = f.sport

theorem classify_eq (tc : Tc) (port : Nat) : tc.classify port =
    match (tc.matching port).head? with
    | some f => if (tc.classes.find? f.flowid).isSome then f.flowid else tc.defcls
    | none => tc.defcls := by
  rw [classify, matching, List.head?_filter]

theorem matching_filterDelete (filed : tc.Filed) (prio port : Nat) :
    (tc.execute (.filterDelete prio)).matching port = if port = prio then [] else tc.matching port := by
  simp only [matching, execute, List.filter_filter]
  split
  · rename_i same
    rw [List.filter_eq_nil_iff]
    intro f member
    simp [filed f member, same]
  · rename_i other
    refine List.filter_congr fun f member => ?_
    by_cases here : f.sport = port
    · simp [filed f member, here, other]
    · simp [here]

theorem matching_filterReplace (tc : Tc) (prio sport classid port : Nat) :
    (tc.execute (.filterReplace prio sport classid)).matching port =
      (tc.filters.takeWhile (·.prio ≤ prio)).filter (·.sport == port) ++
        ((if sport = port then [⟨prio, sport, classid⟩] else []) ++
          (tc.filters.dropWhile (·.prio ≤ prio)).filter (·.sport == port)) := by
  simp only [matching, execute, List.filter_append, List.filter_cons, beq_iff_eq]
  split <;> rfl

/-- A port that no filter matches gets exactly the new one. -/
theorem matching_filterReplace_self (unmatched : tc.matching port = []) (prio classid : Nat) :
    (tc.execute (.filterReplace prio port classid)).matching port = [⟨prio, port, classid⟩] := by
  have split := List.takeWhile_append_dropWhile (p := fun f : TcFilter => decide (f.prio ≤ prio)) (l := tc.filters)
  rw [matching, ← split, List.filter_append, List.append_eq_nil_iff] at unmatched
  rw [matching_filterReplace, unmatched.1, unmatched.2, if_pos rfl]
  rfl

theorem matching_filterReplace_other {sport : Nat} (other : port ≠ sport) (prio classid : Nat) :
    (tc.execute (.filterReplace prio sport classid)).matching port = tc.matching port := by
  rw [matching_filterReplace, if_neg (Ne.symm other), List.nil_append, ← List.filter_append,
    List.takeWhile_append_dropWhile, matching]

theorem Filed.filterDelete (filed : tc.Filed) (prio : Nat) : (tc.execute (.filterDelete prio)).Filed :=
  fun f member => filed f (List.mem_of_mem_filter member)

theorem Filed.filterReplace (filed : tc.Filed) (sport classid : Nat) :
    (tc.execute (.filterReplace sport sport classid)).Filed := by
  intro f member
  rcases List.mem_append.mp member with front | member
  · exact filed f ((List.takeWhile_prefix _).mem front)
  · rcases List.mem_cons.mp member with rfl | back
    · rfl
    · exact filed f ((List.dropWhile_suffix _).mem back)

end Tc

namespace TrafficControlManager

variable {m : TrafficControlManager}

/-- What a call with a bandwidth does to its port, and to the rest. -/
theorem setIpPortBandwidth_spec (filed : m.tc.Filed) (ip_port : Nat) {bandwidth : Rat} (positive : 0 < bandwidth) :
    let m' := (m.setIpPortBandwidth ip_port bandwidth).2
    m'.tc.Filed ∧ m'.tc.defcls = m.tc.defcls ∧
      (∀ port, m'.tc.matching port = if port = ip_port then [⟨ip_port, ip_port, ip_port⟩] else m.tc.matching port) ∧
      ∀ minor, m'.tc.classes.find? minor =
        if minor = ip_port then some (readRate (rateText bandwidth)) else m.tc.classes.find? minor := by
  rw [setIpPortBandwidth, if_neg (not_le.mpr positive)]
  refine ⟨(Tc.Filed.filterDelete filed ip_port).filterReplace ip_port ip_port, rfl, fun port => ?_,
    fun minor => OrderedMap.find?_insert ..⟩
  have deleted : ((m.addTcClass ip_port bandwidth).2.tc.execute (.filterDelete ip_port)).matching port = _ :=
    Tc.matching_filterDelete filed ip_port port
  by_cases here : port = ip_port
  · rw [if_pos here] at deleted ⊢
    subst here
    exact Tc.matching_filterReplace_self deleted port port
  · rw [if_neg here] at deleted ⊢
    exact (Tc.matching_filterReplace_other here ip_port ip_port).trans deleted

/-- The six digits of a bandwidth are what `tc` reads. -/
theorem readRate_rateText {bandwidth : Rat} (positive : 0 < bandwidth) :
    readRate (rateText bandwidth) = sixDigits bandwidth := by
  have ends : EndsDouble megabit := by
    intro b first
    cases first
    decide
  have read := readDouble_showDouble (List.forall_mem_nil (isSpace · = true)) positive ends
  rw [List.nil_append] at read
  rw [readRate, rateText, read]
  rfl

/-- Calls one after another. -/
def after (bandwidth_MBs : Rat) (calls : List BandwidthCall) : TrafficControlManager :=
  calls.foldl (fun m c => (m.setIpPortBandwidth c.ip_port c.bandwidth).2) (create bandwidth_MBs)

theorem after_concat (bandwidth_MBs : Rat) (calls : List BandwidthCall) (c : BandwidthCall) :
    after bandwidth_MBs (calls ++ [c]) = ((after bandwidth_MBs calls).setIpPortBandwidth c.ip_port c.bandwidth).2 := by
  rw [after, List.foldl_append]
  rfl

/-- The classes and filters are those of the calls with a bandwidth. The other
calls leave no trace. -/
structure Holds (bandwidth_MBs : Rat) (calls : List BandwidthCall) (tc : Tc) : Prop where
  filed : tc.Filed
  default : tc.defcls = DEFAULT_CLASS
  matching : ∀ port, tc.matching port =
    if (lastPositive calls port).isSome then [⟨port, port, port⟩] else []
  classes : ∀ minor, tc.classes.find? minor =
    (((lastPositive calls minor).map fun b => readRate (rateText b)).or ((create bandwidth_MBs).tc.classes.find? minor))

theorem Holds.create (bandwidth_MBs : Rat) : Holds bandwidth_MBs [] (create bandwidth_MBs).tc :=
  ⟨fun _ member => (List.not_mem_nil member).elim, rfl, fun _ => rfl, fun _ => rfl⟩

theorem Holds.call {bandwidth_MBs : Rat} {calls : List BandwidthCall} (holds : Holds bandwidth_MBs calls m.tc)
    (c : BandwidthCall) :
    Holds bandwidth_MBs (calls ++ [c]) (m.setIpPortBandwidth c.ip_port c.bandwidth).2.tc := by
  have last (port : Nat) := lastOf_concat calls (fun c => decide (0 < c.bandwidth)) c port
  by_cases positive : 0 < c.bandwidth
  · obtain ⟨filed, default, matching, classes⟩ := setIpPortBandwidth_spec holds.filed c.ip_port positive
    refine ⟨filed, default.trans holds.default, fun port => ?_, fun minor => ?_⟩
    · rw [matching port, holds.matching port, lastPositive, lastPositive, last port]
      by_cases here : port = c.ip_port
      · simp [here, positive]
      · simp [here, Ne.symm here]
    · rw [classes minor, holds.classes minor, lastPositive, lastPositive, last minor]
      by_cases here : minor = c.ip_port
      · simp [here, positive]
      · simp [here, Ne.symm here]
  · have same (port : Nat) : lastPositive (calls ++ [c]) port = lastPositive calls port := by
      rw [lastPositive, last port, if_neg fun both => positive (by simpa using both.2)]
      rfl
    rw [setIpPortBandwidth, if_pos (not_lt.mp positive)]
    exact ⟨holds.filed, holds.default, fun port => by rw [same port]; exact holds.matching port,
      fun minor => by rw [same minor]; exact holds.classes minor⟩

theorem holds_after (bandwidth_MBs : Rat) (calls : List BandwidthCall) :
    Holds bandwidth_MBs calls (after bandwidth_MBs calls).tc := by
  induction calls using List.reverseRecOn with
  | nil => exact .create bandwidth_MBs
  | append_singleton calls c ih =>
    rw [after_concat]
    exact ih.call c

theorem Holds.classify {bandwidth_MBs : Rat} {calls : List BandwidthCall} {tc : Tc} (holds : Holds bandwidth_MBs calls tc)
    (port : Nat) : tc.classify port = if (lastPositive calls port).isSome then port else DEFAULT_CLASS := by
  rw [Tc.classify_eq, holds.matching port, holds.default]
  cases last : lastPositive calls port with
  | none => rfl
  | some b =>
    have present : (tc.classes.find? port).isSome = true := by
      rw [holds.classes port, last]
      rfl
    simp [present]

/-- A call for a port changes nothing for the other ports, nor for the root
class and the default class. -/
structure LeavesOthers (tc tc' : Tc) (port : Nat) : Prop where
  root : tc'.classes.find? ROOT_CLASS = tc.classes.find? ROOT_CLASS
  default : tc'.classes.find? DEFAULT_CLASS = tc.classes.find? DEFAULT_CLASS
  other : ∀ q, q ≠ port → tc'.matching q = tc.matching q ∧ tc'.classes.find? q = tc.classes.find? q ∧
    tc'.classify q = tc.classify q

theorem Holds.leavesOthers {bandwidth_MBs : Rat} {calls : List BandwidthCall}
    (holds : Holds bandwidth_MBs calls m.tc) (c : BandwidthCall) :
    LeavesOthers m.tc (m.setIpPortBandwidth c.ip_port c.bandwidth).2.tc c.ip_port := by
  have next := holds.call c
  have last {port : Nat} (other : port ≠ c.ip_port) : lastPositive (calls ++ [c]) port = lastPositive calls port :=
    (lastOf_concat ..).trans (if_neg fun both => other both.1.symm)
  have classes {minor : Nat} (other : minor ≠ c.ip_port) :
      (m.setIpPortBandwidth c.ip_port c.bandwidth).2.tc.classes.find? minor = m.tc.classes.find? minor := by
    rw [next.classes, holds.classes, last other]
  have low := c.low
  refine ⟨classes ?_, classes ?_, fun q other => ⟨?_, classes other, ?_⟩⟩
  · unfold ROOT_CLASS
    omega
  · unfold DEFAULT_CLASS
    omega
  · rw [next.matching, holds.matching, last other]
  · rw [next.classify, holds.classify, last other]

/-- The traffic control after some calls is what the last call for each port
says, and no call reaches beyond its port. -/
structure Reflects (bandwidth_MBs : Rat) (calls : List BandwidthCall) : Prop where
  positive : ∀ port b, lastBandwidth calls port = some b → 0 < b →
    (after bandwidth_MBs calls).tc.matching port = [⟨port, port, port⟩] ∧
    (after bandwidth_MBs calls).tc.classes.find? port = some b ∧ (after bandwidth_MBs calls).tc.classify port = port
  default : ∀ port b, lastBandwidth calls port = some b → b ≤ 0 →
    (after bandwidth_MBs calls).tc.classify port = DEFAULT_CLASS
  others : ∀ before c, before ++ [c] <+: calls →
    LeavesOthers (after bandwidth_MBs before).tc (after bandwidth_MBs (before ++ [c])).tc c.ip_port

/-- The traffic control reflects the last call for each port if and only if
that call has a bandwidth of six digits, or no call for the port has one at all. -/
theorem reflects_iff (bandwidth_MBs : Rat) (calls : List BandwidthCall) :
    Reflects bandwidth_MBs calls ↔ ∀ port b, lastBandwidth calls port = some b →
      0 < b ∧ sixDigits b = b ∨ b ≤ 0 ∧ ∀ c ∈ calls, c.ip_port = port → c.bandwidth ≤ 0 := by
  have holds := holds_after bandwidth_MBs calls
  constructor
  · intro reflects port b last
    rcases lt_or_ge 0 b with positive | negative
    · obtain ⟨-, rate, -⟩ := reflects.positive port b last positive
      rw [holds.classes port, lastPositive_of_last last positive] at rate
      exact Or.inl ⟨positive, (readRate_rateText positive).symm.trans (Option.some.inj rate)⟩
    · have unset := reflects.default port b last negative
      have port_low := low_of_last last
      rw [holds.classify port] at unset
      refine Or.inr ⟨negative, lastPositive_eq_none_iff.mp ?_⟩
      by_contra set
      rw [if_pos (Option.isSome_iff_ne_none.mpr set), DEFAULT_CLASS] at unset
      omega
  · intro asked
    refine ⟨fun port b last positive => ?_, fun port b last negative => ?_, fun before c within => ?_⟩
    · have set := lastPositive_of_last last positive
      obtain ⟨-, exact_rate⟩ := (asked port b last).resolve_right fun other => absurd positive (not_lt.mpr other.1)
      refine ⟨?_, ?_, ?_⟩
      · rw [holds.matching port, set]
        rfl
      · rw [holds.classes port, set, Option.map_some, readRate_rateText positive, exact_rate]
        rfl
      · rw [holds.classify port, set]
        rfl
    · obtain ⟨-, unset⟩ := (asked port b last).resolve_left fun other => absurd other.1 (not_lt.mpr negative)
      rw [holds.classify port, lastPositive_eq_none_iff.mpr unset]
      rfl
    · rw [after_concat]
      exact (holds_after bandwidth_MBs before).leavesOthers c

/-- A port that had 10 Mbit and is to have none keeps its class. -/
theorem stale_class_is_kept : ¬ ∀ (bandwidth_MBs : Rat) (calls : List BandwidthCall), Reflects bandwidth_MBs calls := by
  intro always
  have reflects := always 100 [⟨40000, 10, by decide, by decide⟩, ⟨40000, 0, by decide, by decide⟩]
  have default := reflects.default 40000 0 rfl le_rfl
  rw [(holds_after _ _).classify] at default
  exact absurd default (by decide)

end TrafficControlManager

end CoflowSim
