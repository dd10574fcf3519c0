import AlarmClock.Proofs.Dismissal
import AlarmClock.Proofs.Rearm

set_option autoImplicit false

namespace AlarmClock

namespace Controller

end Controller

namespace Station

def repeats (s : Station) (around : Surroundings) (call : Call) : Station :=
  (s.hears ⟨refusing around, call⟩).hears ⟨around, call⟩

end Station
end AlarmClock
