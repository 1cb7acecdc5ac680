import ExprHost.Text.Hex

/-!
# How a process ends

The status that the system reports of a process is a word. Its lowest seven bits tell
how to read the rest: an exit code, the signal that killed the process, or something
else that can happen to a process.

* `ExitStatus.meaning`: what a status says.
* `meaning_ofCode`, `meaning_ofSignal`: codes and signals are what is read back.
-/

namespace ExprHost

/-- The status of a process as the system reports it. -/
structure ExitStatus where
  word : UInt32
deriving DecidableEq, Inhabited

namespace ExitStatus

/-- What a status says of a process. -/
inductive Meaning
  | exited (code : Nat)
  | killed (signal : Nat) (dumped : Bool)
  | stopped (signal : Nat)
  | continued
  | unknown
deriving DecidableEq, Inhabited

/-- A process that ended by itself. -/
def ofCode (code : UInt8) : ExitStatus := ⟨UInt32.ofNat (code.toNat * 256)⟩

/-- A process that was killed by a signal and left no memory image. -/
def ofSignal (signal : Nat) : ExitStatus := ⟨UInt32.ofNat signal⟩

/-- The lowest seven bits. -/
def low (s : ExitStatus) : Nat := s.word.toNat % 128

/-- The second byte. -/
def second (s : ExitStatus) : Nat := s.word.toNat / 256 % 256

/-- **What a status says.** Seven zeros stand for an exit and seven ones for all that
is no end at all; any other number is a signal, and the bit after it says whether a
memory image was left. -/
def meaning (s : ExitStatus) : Meaning :=
  if s.low = 0 then .exited s.second
  else if s.low < 127 then .killed s.low (s.word.toNat / 128 % 2 = 1)
  else if s.word.toNat % 256 = 127 then .stopped s.second
  else if s.word = 0xFFFF then .continued
  else .unknown

/-- Whether the process ended by itself, without complaint. -/
def isSuccess (s : ExitStatus) : Bool := s.word = 0

/-- The names of signals, from number one on. -/
def signalNames : List String :=
  ["SIGHUP", "SIGINT", "SIGQUIT", "SIGILL", "SIGTRAP", "SIGABRT", "SIGBUS", "SIGFPE", "SIGKILL",
   "SIGUSR1", "SIGSEGV", "SIGUSR2", "SIGPIPE", "SIGALRM", "SIGTERM", "SIGSTKFLT", "SIGCHLD",
   "SIGCONT", "SIGSTOP", "SIGTSTP", "SIGTTIN", "SIGTTOU", "SIGURG", "SIGXCPU", "SIGXFSZ",
   "SIGVTALRM", "SIGPROF", "SIGWINCH", "SIGIO", "SIGPWR", "SIGSYS"]

/-- A signal's number, with its name if it has one. -/
def signalText : Nat → String
  | 0 => "0"
  | n + 1 =>
    match signalNames[n]? with
    | some name => toString (n + 1) ++ " (" ++ name ++ ")"
    | none => toString (n + 1)

/-- The status in words. A word that says nothing is shown as a signed number and by
its digits. -/
def text (s : ExitStatus) : String :=
  match s.meaning with
  | .exited code => "exit status: " ++ toString code
  | .killed signal dumped =>
    "signal: " ++ signalText signal ++ if dumped then " (core dumped)" else ""
  | .stopped signal => "stopped (not terminated) by signal: " ++ signalText signal
  | .continued => "continued (WIFCONTINUED)"
  | .unknown =>
    "unrecognised wait status: " ++ toString s.word.toInt32.toInt ++ " 0x" ++ Hex.short s.word.toNat

theorem toNat_word_ofCode (code : UInt8) : (ofCode code).word.toNat = code.toNat * 256 := by
  have := code.toNat_lt
  simp only [ofCode, UInt32.toNat_ofNat']
  omega

theorem meaning_ofCode (code : UInt8) : (ofCode code).meaning = .exited code.toNat := by
  have hlt := code.toNat_lt
  have hlow : (ofCode code).low = 0 := by
    rw [low, toNat_word_ofCode]
    omega
  have hsecond : (ofCode code).second = code.toNat := by
    rw [second, toNat_word_ofCode]
    omega
  rw [meaning, if_pos hlow, hsecond]

theorem meaning_ofSignal {signal : Nat} (hpos : 0 < signal) (hlt : signal < 127) :
    (ofSignal signal).meaning = .killed signal false := by
  have hword : (ofSignal signal).word.toNat = signal := by
    simp only [ofSignal, UInt32.toNat_ofNat']
    omega
  have hlow : (ofSignal signal).low = signal := by
    rw [low, hword]
    omega
  have hbit : signal / 128 % 2 = 0 := by omega
  rw [meaning, hlow, hword, if_neg (by omega), if_pos hlt, hbit]
  rfl

/-- Of all exits only that with code zero is a success. -/
theorem isSuccess_ofCode (code : UInt8) : (ofCode code).isSuccess = true ↔ code = 0 := by
  simp only [isSuccess, decide_eq_true_eq, ← UInt32.toNat_inj, toNat_word_ofCode,
    ← UInt8.toNat_inj]
  change code.toNat * 256 = 0 ↔ code.toNat = 0
  omega

end ExitStatus

end ExprHost
