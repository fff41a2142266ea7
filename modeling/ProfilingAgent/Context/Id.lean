import ProfilingAgent.Context.SipHash
import ProfilingAgent.Text.Digits

set_option autoImplicit false

namespace ProfilingAgent

structure ContextId where
  raw : UInt64
deriving DecidableEq, Inhabited

namespace ContextId

def text (id : ContextId) : String := Text.numeral id.raw.toNat

/-- The id of a thread that the host numbers itself. The number is reduced modulo the process id,
if that is not zero, and hashed. -/
def ofHostThread (thread : UInt64) (pid : UInt32) : ContextId :=
  ⟨SipHash.word (if pid = 0 then thread else thread % pid.toUInt64)⟩

end ContextId
end ProfilingAgent
