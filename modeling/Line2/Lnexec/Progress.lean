import Line2.Lnexec.Discipline
import Line2.Lnexec.HandlerPatterns

/-! How far a guest gets: which of its faults the host takes care of, which end the run, and
which leave it to what the host's code comes to. -/
namespace Line2.Lnexec
open Library.Memory Library.Runs Ia32

section
variable {host : HostCode} {reserve : Nat} {h : HostAnswers} {k : Scratch} {w : Services Tls}
  {s : State}

end

section sample

end sample
end Line2.Lnexec
