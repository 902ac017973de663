import AppBundle.Model

namespace AppBundle

/-!
Additional dependencies. They are declared for a module by group and name, join the nested model
of the first such key, and are recorded at the root for the runtime.
-/

namespace Application

/-- Adds one declaration's dependencies to its module and records the declaration. -/
def extend (application : Application) (addition : Addition) : Except Failure Application :=
  match application.keyNamed? addition.group addition.name with
  | none => .error (.missingCoordinate (.additionTarget addition.group addition.name))
  | some key =>
      let recorded : Addition :=
        { addition with dependencies := (DependencySet.ofList addition.dependencies).artifacts }
      let extended := application.insertInto key addition.dependencies
      .ok { extended with
        root := { extended.root with additions := extended.root.additions ++ [recorded] } }

def extendAll (application : Application) (additions : List Addition) :
    Except Failure Application :=
  additions.foldlM extend application

end Application

end AppBundle
