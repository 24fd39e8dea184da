import BindingGraph.Graph.Dependency

/-!
# An example graph

The bindings of a small beach resort, for trying queries out.
-/

namespace BindingGraph.Workspace

/-- The example graph. -/
def exampleGraph : DependencyGraph :=
  .ofBindings
    [("com.example.beach.BeachComponent", ["com.example.beach.Beach"]),
     ("com.example.beach.Beach",
       ["java.util.Set<com.example.beach.Tourist>", "java.util.Set<com.example.beach.Staff>",
        "com.example.beach.IceCreamShop"]),
     ("java.util.Set<com.example.beach.Tourist>", ["com.example.beach.Tourist"]),
     ("java.util.Set<com.example.beach.Staff>", ["com.example.beach.Lifeguard"]),
     ("java.util.List<com.example.beach.Staff>", ["com.example.beach.Manager"]),
     ("com.example.beach.TouristsComponent", ["com.example.beach.Tourist"]),
     ("com.example.beach.Apartment",
       ["com.example.beach.Bed", "com.example.beach.MiniBar", "com.example.beach.TV",
        "com.example.beach.Phone", "com.example.beach.Tourist"]),
     ("com.example.beach.MiniBar",
       ["com.example.beach.CocaCola", "com.example.beach.Fanta", "com.example.beach.Sprite"])]

end BindingGraph.Workspace
