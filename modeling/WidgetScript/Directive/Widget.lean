import WidgetScript.Directive.Fault

/-! A widget in a directive is a widget value or a map with its `kind`, its `id`, perhaps
its `children`, and its properties. -/
namespace WidgetScript
namespace Widget

def propsOf (props : Properties) : List (String × Value) → Except ValueFault Properties
  | [] => .ok props
  | (key, v) :: rest =>
      if key = "kind" ∨ key = "id" ∨ key = "children" then propsOf props rest
      else
        match Property.coerce key v with
        | .ok (some p) => propsOf (Fields.insert key p props) rest
        | .ok none => propsOf props rest
        | .error reason => .error (.misfit key reason)

def ofEntries (entries : Fields Value) (children : Except ValueFault (List Widget)) :
    Except ValueFault Widget :=
  let kindName := ((Fields.get? entries "kind").bind Value.str?).getD ""
  match Kind.ofName? kindName with
  | none => .error (.unknownKind kindName)
  | some kind =>
      match (Fields.get? entries "id").bind Value.str? with
      | none => .error .missingId
      | some id =>
          if id.isEmpty then .error .missingId
          else do
            let children ← children
            if !kind.isContainer && !children.isEmpty then .error (.leafWithChildren kind)
            else
              let props ← propsOf [] entries
              .ok ⟨kind, id, props, children, .none⟩

mutual

def ofValue : Value → Except ValueFault Widget
  | .node w => .ok w
  | .map entries => ofEntries entries (childrenIn entries)
  | v => .error (.expectedWidget v.typeName)

def ofValues : List Value → Except ValueFault (List Widget)
  | [] => .ok []
  | v :: vs => do
      let w ← ofValue v
      let ws ← ofValues vs
      .ok (w :: ws)

def childrenIn : List (String × Value) → Except ValueFault (List Widget)
  | [] => .ok []
  | (key, v) :: rest => if key = "children" then childrenOf v else childrenIn rest

def childrenOf : Value → Except ValueFault (List Widget)
  | .nil => .ok []
  | .list items => ofValues items
  | v => .error (.childrenNotList v.typeName)

end

end Widget
end WidgetScript
