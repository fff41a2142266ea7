import ProfilingAgent.Log.Event

set_option autoImplicit false

namespace ProfilingAgent.Log

structure Noted (α : Type) where
  value : α
  events : List Event

namespace Noted

variable {α β : Type}

instance : Monad Noted where
  pure a := ⟨a, []⟩
  bind m f := ⟨(f m.value).value, m.events ++ (f m.value).events⟩

def note (e : Event) : Noted Unit := ⟨(), [e]⟩

def saying (a : α) (level : Level) (message : String) : Noted α := ⟨a, [.say level message]⟩

theorem value_bind (m : Noted α) (f : α → Noted β) : (m >>= f).value = (f m.value).value := rfl

theorem events_bind (m : Noted α) (f : α → Noted β) :
    (m >>= f).events = m.events ++ (f m.value).events := rfl

theorem value_pure (a : α) : (pure a : Noted α).value = a := rfl

end Noted
end ProfilingAgent.Log
