import ChipEight.Machine.Describe

/-!
# Stepping the machine

A cycle fetches a word, decodes it and executes it.  A cycle that fails puts the program counter
back on the instruction and otherwise keeps what the execution left behind.  A step is a cycle of a
loaded machine, after which the timers are updated.
-/

namespace ChipEight

namespace Processor

def aim (p : Processor) : Processor :=
  { p with lastAddress := p.pc }

def fetched (p : Processor) (word : UInt16) : Processor :=
  { p with lastWord := word, pc := p.pc + 2 }

def follow (p : Processor) : Flow → Processor
  | .next => p
  | .skip => { p with pc := p.pc + 2 }
  | .jump target => { p with pc := target }
  | .again => { p with pc := p.lastAddress }

end Processor

namespace Machine

def fetched (m : Machine) (word : UInt16) : Machine :=
  { m with processor := m.processor.aim.fetched word }

/-- The machine on which an instruction failed, with the program counter back on it. -/
def stopped (m : Machine) : Machine :=
  { m with processor := { m.processor with pc := m.processor.lastAddress } }

def perform (m : Machine) (instruction : Instruction) : Attempt Machine Fault :=
  match (execute instruction).run m with
  | .error fault after =>
      .failed after.stopped fault (if instruction.announced then #[m.record instruction] else #[])
  | .ok flow after =>
      .done { after with processor := after.processor.follow flow } #[m.record instruction]

def cycle (m : Machine) : Attempt Machine Fault :=
  if m.processor.running then
    match m.memory.word m.processor.pc.toNat with
    | .error e =>
        let aimed := { m with processor := m.processor.aim }
        .failed aimed (aimed.outOfBounds e) #[]
    | .ok word => (m.fetched word).perform (.decode word)
  else
    .failed m .halted #[]

def updateTimers (m : Machine) (now : Nat) : Machine :=
  { m with timers := m.timers.update now }

def step (m : Machine) (now : Nat) : Attempt Machine Fault :=
  if m.loaded then
    m.cycle.andThen fun after => .done (after.updateTimers now) (after.timers.updateLog now)
  else
    .failed m .noProgram #[]

def steps (m : Machine) (now count : Nat) : Attempt Machine Fault :=
  Attempt.repeatedly (·.step now) count (.done m #[])

def load (m : Machine) (program : Program) : Attempt Machine LoadError :=
  if m.loaded then
    .failed m .alreadyLoaded #[]
  else
    ((m.memory.load program).lift (fun memory => { m with memory }) id).andThen fun after =>
      .done { after with loaded := true }
        #[⟨.info, .machine, s!"Loaded a {program.size} byte program"⟩]

def resetAndLoad (m : Machine) (now : Nat) (program : Program) : Attempt Machine LoadError :=
  (m.reset now).load program

end Machine

end ChipEight
