import VisualRules.Handler

namespace VisualRules

structure HandlerTable (α : Type) where
  buttons : α
  proximity : α
  tap : α
  tilt : α
  clap : α
  timeout : α
  deriving DecidableEq, Repr

namespace HandlerTable

variable {α β : Type}

def replicate (value : α) : HandlerTable α := ⟨value, value, value, value, value, value⟩

def get (table : HandlerTable α) : Handler → α
  | .buttons => table.buttons
  | .proximity => table.proximity
  | .tap => table.tap
  | .tilt => table.tilt
  | .clap => table.clap
  | .timeout => table.timeout

def set (table : HandlerTable α) (handler : Handler) (value : α) : HandlerTable α :=
  match handler with
  | .buttons => { table with buttons := value }
  | .proximity => { table with proximity := value }
  | .tap => { table with tap := value }
  | .tilt => { table with tilt := value }
  | .clap => { table with clap := value }
  | .timeout => { table with timeout := value }

def map (f : α → β) (table : HandlerTable α) : HandlerTable β :=
  ⟨f table.buttons, f table.proximity, f table.tap, f table.tilt, f table.clap, f table.timeout⟩

@[ext] theorem ext_get {table other : HandlerTable α}
    (h : ∀ handler, table.get handler = other.get handler) : table = other := by
  cases table; cases other
  simpa [get] using
    ⟨h .buttons, h .proximity, h .tap, h .tilt, h .clap, h .timeout⟩

@[simp] theorem get_replicate (value : α) (handler : Handler) :
    (replicate value).get handler = value := by
  cases handler <;> rfl

@[simp] theorem get_map (f : α → β) (table : HandlerTable α) (handler : Handler) :
    (table.map f).get handler = f (table.get handler) := by
  cases handler <;> rfl

theorem get_set (table : HandlerTable α) (changed handler : Handler) (value : α) :
    (table.set changed value).get handler =
      if handler = changed then value else table.get handler := by
  cases changed <;> cases handler <;> rfl

end HandlerTable

end VisualRules
