import DeviceHub.Dispatcher

/-!
# Sinks without a network

* `Store`        the points that a sink in memory keeps, in the order of their arrival;
* `Store.sink`   the sink that keeps all points except those it refuses;
* `Sink.forgetful`  the sink that accepts all points and keeps none.
-/

namespace DeviceHub

/-- the points that a sink in memory keeps -/
abbrev Store := List Point

namespace Store

/-- the sink that keeps the points which `refuse` does not object to -/
def sink (refuse : Point → Option SinkError) : Sink Store where
  write kept p :=
    match refuse p with
    | some e => (kept, some e)
    | none => (kept ++ [p], none)

def ofMeasurement (s : Store) (name : String) : List Point := s.filter fun p => p.measurement = name

end Store

/-- the sink that accepts all points and keeps none -/
def Sink.forgetful {σ : Type} : Sink σ where
  write s _ := (s, none)

end DeviceHub
