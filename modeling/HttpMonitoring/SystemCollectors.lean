import HttpMonitoring.Collection
import HttpMonitoring.WorkerRows
import HttpMonitoring.Library.Doubles
import HttpMonitoring.Library.LabelledLines
import HttpMonitoring.Library.ScanConversions

/-!
# The other collectors

Load, uptime, processes, sockets, the counters of the core, and the status of
the worker itself. Doubles are rounded by a parameter.
-/

namespace HttpMonitoring.SystemCollectors

open Accounting Collectors Collection WorkerRows Library.CString Library.Scanf Library.Doubles
  Library.LabelledLines

variable {w : Nat}

section Doubles

variable (D : Rounding)

/-- A double that is cast to an unsigned word. -/
def castDouble (x : ℚ) : BitVec w := BitVec.ofNat w ⌊x⌋₊

def milliLoad (x : ℚ) : BitVec w := castDouble (D.round (D.round x * 1000))

def collectLoad (file : Option Bytes) (sh : Shctx w) : Shctx w :=
  match readFile file 256 with
  | none => sh
  | some buf =>
    match reals 3 buf with
    | [l1, l5, l15] =>
      { sh with system := { sh.system with
        load1Milli := milliLoad D l1
        load5Milli := milliLoad D l5
        load15Milli := milliLoad D l15 } }
    | _ => sh

def collectUptime (file : Option Bytes) (sh : Shctx w) : Shctx w :=
  match readFile file 256 with
  | none => sh
  | some buf =>
    match reals 1 buf with
    | [uptime] => { sh with system := { sh.system with uptime := castDouble (D.round uptime) } }
    | _ => sh

end Doubles

/-- The names in `/proc`, unless it cannot be opened. -/
def collectProcesses (names : Option (List Bytes)) (sh : Shctx w) : Shctx w :=
  match names with
  | none => sh
  | some names =>
    let count := names.countP fun name => isDigit (name.getD 0 0)
    { sh with system := { sh.system with processCount := BitVec.ofNat w count } }

def tcpFormat : List Directive :=
  [.white, .unsigned false, .literal 58, .white, .word 64 false, .white, .word 64 false, .white]

/-- The state in a line of the socket table, as an `unsigned`. -/
def tcpState (line : Bytes) : Option (BitVec 32) :=
  ((after tcpFormat line).bind hexPrefix).map fun p => BitVec.ofNat 32 p.1

def tcpEstablished : BitVec 32 := 0x01
def tcpListen : BitVec 32 := 0x0a

/-- The lines behind the first one that show the state. -/
def countState (state : BitVec 32) (table : Bytes) : Nat :=
  (((fgetsLines 512 table).tail.map text).filterMap tcpState).count state

/-- The tables of both families; one that cannot be opened counts nothing. -/
def collectTcp (tcp tcp6 : Option Bytes) (sh : Shctx w) : Shctx w :=
  let sum := fun state => (([tcp, tcp6].filterMap id).map (countState state)).sum
  { sh with system := { sh.system with
    tcpEstablished := BitVec.ofNat w (sum tcpEstablished)
    tcpListen := BitVec.ofNat w (sum tcpListen) } }

inductive SockFigure
  | used
  | tcp
  | udp
deriving DecidableEq

namespace SockFigure

def all : List SockFigure := [.used, .tcp, .udp]

def title : SockFigure → Bytes
  | .used => ascii "sockets:"
  | .tcp => ascii "TCP:"
  | .udp => ascii "UDP:"

def key : SockFigure → Bytes
  | .used => ascii "used"
  | .tcp => ascii "inuse"
  | .udp => ascii "inuse"

def format (f : SockFigure) : List Directive := literals f.title ++ .white :: (literals f.key ++ llu)

/-- An `unsigned` that is assigned to a word. -/
def word (value : Nat) : BitVec w := (BitVec.ofNat 32 value).setWidth w

def get (f : SockFigure) (s : SystemMetric w) : BitVec w :=
  match f with
  | .used => s.socketsUsed
  | .tcp => s.socketsTcp
  | .udp => s.socketsUdp

def store (f : SockFigure) (value : Nat) (s : SystemMetric w) : SystemMetric w :=
  match f with
  | .used => { s with socketsUsed := word value }
  | .tcp => { s with socketsTcp := word value }
  | .udp => { s with socketsUdp := word value }

theorem get_store_self (f : SockFigure) (n : Nat) (s : SystemMetric w) : f.get (f.store n s) = word n := by
  cases f <;> rfl

theorem get_store_of_ne {f g : SockFigure} (n : Nat) (s : SystemMetric w) (h : g ≠ f) :
    g.get (f.store n s) = g.get s := by
  cases f <;> cases g <;> first | rfl | exact absurd rfl h

end SockFigure

def collectSockstat (file : Option Bytes) (sh : Shctx w) : Shctx w :=
  match readFile file 4096 with
  | none => sh
  | some buf => { sh with system := storeLines SockFigure.all SockFigure.format SockFigure.store buf sh.system }

inductive StatusFigure
  | vmSize
  | vmRss
  | voluntaryCtxt
  | nonvoluntaryCtxt
deriving DecidableEq

namespace StatusFigure

def all : List StatusFigure := [.vmSize, .vmRss, .voluntaryCtxt, .nonvoluntaryCtxt]

def label : StatusFigure → Bytes
  | .vmSize => ascii "VmSize:"
  | .vmRss => ascii "VmRSS:"
  | .voluntaryCtxt => ascii "voluntary_ctxt_switches:"
  | .nonvoluntaryCtxt => ascii "nonvoluntary_ctxt_switches:"

def inKilobytes : StatusFigure → Bool
  | .vmSize => true
  | .vmRss => true
  | .voluntaryCtxt => false
  | .nonvoluntaryCtxt => false

def unit (f : StatusFigure) : List Directive := if f.inKilobytes then .white :: literals (ascii "kB") else []

def format (f : StatusFigure) : List Directive := literals f.label ++ (.white :: .unsigned true :: f.unit)

def word (f : StatusFigure) (value : Nat) : BitVec w :=
  toWord (if f.inKilobytes then long value * 1024 else long value)

def get (f : StatusFigure) (s : SelfStatus w) : Option (BitVec w) :=
  match f with
  | .vmSize => s.vmSize
  | .vmRss => s.vmRss
  | .voluntaryCtxt => s.voluntaryCtxt
  | .nonvoluntaryCtxt => s.nonvoluntaryCtxt

def store (f : StatusFigure) (value : Nat) (s : SelfStatus w) : SelfStatus w :=
  match f with
  | .vmSize => { s with vmSize := some (f.word value) }
  | .vmRss => { s with vmRss := some (f.word value) }
  | .voluntaryCtxt => { s with voluntaryCtxt := some (f.word value) }
  | .nonvoluntaryCtxt => { s with nonvoluntaryCtxt := some (f.word value) }

end StatusFigure

/-- What `collect_self_status` finds in the file. -/
def readSelfStatus (file : Option Bytes) : Option (SelfStatus w) :=
  (readFile file 8192).map fun buf =>
    storeLines StatusFigure.all StatusFigure.format StatusFigure.store buf ⟨none, none, none, none⟩

/-- The counters of the core; there are none without the stub status module. -/
structure StubStatus (w : Nat) where
  accepted : BitVec w
  handled : BitVec w
  active : BitVec w
  reading : BitVec w
  writing : BitVec w
  waiting : BitVec w

def collectNginx (stub : Option (StubStatus w)) (sh : Shctx w) : Shctx w :=
  match stub with
  | none => sh
  | some stat =>
    { sh with connections := { sh.connections with
      accepted := stat.accepted
      handled := stat.handled
      total := stat.active
      active := stat.active
      reading := stat.reading
      writing := stat.writing
      waiting := stat.waiting } }

theorem collectLoad_writes (D : Rounding) (file : Option Bytes) (sh : Shctx w) : ∃ l1 l5 l15,
    collectLoad D file sh =
      { sh with system := { sh.system with load1Milli := l1, load5Milli := l5, load15Milli := l15 } } := by
  rw [collectLoad]
  split
  · exact ⟨sh.system.load1Milli, sh.system.load5Milli, sh.system.load15Milli, rfl⟩
  · split
    · exact ⟨_, _, _, rfl⟩
    · exact ⟨sh.system.load1Milli, sh.system.load5Milli, sh.system.load15Milli, rfl⟩

theorem collectUptime_writes (D : Rounding) (file : Option Bytes) (sh : Shctx w) : ∃ uptime,
    collectUptime D file sh = { sh with system := { sh.system with uptime := uptime } } := by
  rw [collectUptime]
  split
  · exact ⟨sh.system.uptime, rfl⟩
  · split
    · exact ⟨_, rfl⟩
    · exact ⟨sh.system.uptime, rfl⟩

theorem collectProcesses_writes (names : Option (List Bytes)) (sh : Shctx w) : ∃ count,
    collectProcesses names sh = { sh with system := { sh.system with processCount := count } } := by
  cases names with
  | none => exact ⟨sh.system.processCount, rfl⟩
  | some names => exact ⟨_, rfl⟩

theorem collectSockstat_writes (file : Option Bytes) (sh : Shctx w) : ∃ used tcp udp,
    collectSockstat file sh =
      { sh with system := { sh.system with socketsUsed := used, socketsTcp := tcp, socketsUdp := udp } } := by
  have hStores : ∀ (pairs : List (SockFigure × Nat)) (s : SystemMetric w), ∃ used tcp udp,
      pairs.foldl (fun s p => p.1.store p.2 s) s =
        { s with socketsUsed := used, socketsTcp := tcp, socketsUdp := udp } := by
    intro pairs
    induction pairs with
    | nil => exact fun s => ⟨s.socketsUsed, s.socketsTcp, s.socketsUdp, rfl⟩
    | cons p pairs ih =>
      intro s
      obtain ⟨used, tcp, udp, hRest⟩ := ih (p.1.store p.2 s)
      refine ⟨used, tcp, udp, hRest.trans ?_⟩
      cases p.1 <;> rfl
  rw [collectSockstat]
  split
  · exact ⟨sh.system.socketsUsed, sh.system.socketsTcp, sh.system.socketsUdp, rfl⟩
  · obtain ⟨used, tcp, udp, hStored⟩ := hStores _ sh.system
    exact ⟨used, tcp, udp, by rw [storeLines, hStored]⟩

theorem storeFlags_row (count : Nat) (ifaces : Nat → IfaceMetric w) (address : Ifaddr) (i : Nat) :
    ∃ flags, storeFlags count ifaces address i = { ifaces i with flags := flags } := by
  rw [storeFlags]
  cases address.name with
  | none => exact ⟨(ifaces i).flags, rfl⟩
  | some name =>
    dsimp only
    cases (List.range count).find? fun i => strncmpEq nameLen (ifaces i).name name with
    | none => exact ⟨(ifaces i).flags, rfl⟩
    | some j =>
      by_cases h : i = j
      · subst h
        exact ⟨_, Function.update_self i _ _⟩
      · exact ⟨(ifaces i).flags, Function.update_of_ne h _ _⟩

theorem foldl_storeFlags_row (count : Nat) (addresses : List Ifaddr) (ifaces : Nat → IfaceMetric w) (i : Nat) :
    ∃ flags, addresses.foldl (storeFlags count) ifaces i = { ifaces i with flags := flags } := by
  induction addresses generalizing ifaces with
  | nil => exact ⟨(ifaces i).flags, rfl⟩
  | cons address addresses ih =>
    obtain ⟨flags, hRest⟩ := ih (storeFlags count ifaces address)
    obtain ⟨_, hFirst⟩ := storeFlags_row count ifaces address i
    exact ⟨flags, by rw [List.foldl_cons, hRest, hFirst]⟩

end HttpMonitoring.SystemCollectors
